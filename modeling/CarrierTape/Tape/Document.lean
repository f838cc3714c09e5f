import CarrierTape.Json.Printer
import CarrierTape.Json.Schema
import CarrierTape.Tape.Spec

/-!
Tapes in documents: objects or arrays of all ten dimensions. Other members are
passed over.
-/

namespace CarrierTape.TapeSpec

open Json

def schema : Schema TapeSpec where
  title := "struct TapeSpec"
  blank := default
  closed := false
  counted := false
  fields :=
    [.needed "origin_x" Decoder.number fun v s => { s with originX := v },
      .needed "origin_y" Decoder.number fun v s => { s with originY := v },
      .needed "tape_width" Decoder.number fun v s => { s with tapeWidth := v },
      .needed "tape_pitch" Decoder.number fun v s => { s with tapePitch := v },
      .needed "hole_edge_distance" Decoder.number fun v s => { s with holeEdgeDistance := v },
      .needed "hole_diameter" Decoder.number fun v s => { s with holeDiameter := v },
      .needed "part_hole_offset" Decoder.number fun v s => { s with partHoleOffset := v },
      .needed "part_width" Decoder.number fun v s => { s with partWidth := v },
      .needed "part_height" Decoder.number fun v s => { s with partHeight := v },
      .needed "part_count" Decoder.size fun v s => { s with partCount := v }]

def ofDocument (text : String) : Result TapeSpec :=
  decodeText schema.read text

def json (s : TapeSpec) : Json :=
  ofFields
    [("origin_x", ofNumber s.originX), ("origin_y", ofNumber s.originY),
      ("tape_width", ofNumber s.tapeWidth), ("tape_pitch", ofNumber s.tapePitch),
      ("hole_edge_distance", ofNumber s.holeEdgeDistance),
      ("hole_diameter", ofNumber s.holeDiameter),
      ("part_hole_offset", ofNumber s.partHoleOffset), ("part_width", ofNumber s.partWidth),
      ("part_height", ofNumber s.partHeight), ("part_count", ofNat s.partCount)]

end CarrierTape.TapeSpec
