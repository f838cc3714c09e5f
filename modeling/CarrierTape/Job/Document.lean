import CarrierTape.Job.Basic
import CarrierTape.Json.Schema
import CarrierTape.Length.Document

/-!
Jobs in documents. Names that are not declared are refused, so nothing that a user
writes is passed over.
-/

namespace CarrierTape

open Json

namespace TapeEntry

def length? : Decoder (Option Length) :=
  Decoder.optional Length.decoder

def text? : Decoder (Option String) :=
  Decoder.optional Decoder.text

def schema : Schema TapeEntry where
  title := "struct TapeEntry"
  blank := default
  closed := true
  counted := false
  fields :=
    [.spare "name" text? fun v e => { e with name := v },
      .spare "origin_x" length? fun v e => { e with originX := v },
      .spare "origin_y" length? fun v e => { e with originY := v },
      .spare "tape_width" length? fun v e => { e with tapeWidth := v },
      .needed "tape_pitch" Length.decoder fun v e => { e with tapePitch := v },
      .spare "hole_edge_distance" length? fun v e => { e with holeEdgeDistance := v },
      .spare "hole_diameter" length? fun v e => { e with holeDiameter := v },
      .spare "part_hole_offset" length? fun v e => { e with partHoleOffset := v },
      .spare "part" text? fun v e => { e with part := v },
      .spare "part_width" length? fun v e => { e with partWidth := v },
      .spare "part_height" length? fun v e => { e with partHeight := v },
      .needed "part_count" Decoder.number fun v e => { e with partCount := v }]

def ofDocument (text : String) : Result TapeEntry :=
  decodeText schema.read text

end TapeEntry

namespace Job

def schema : Schema Job where
  title := "struct Job"
  blank := ⟨none, defaultGap, []⟩
  closed := true
  counted := false
  fields :=
    [.spare "$schema" (Decoder.optional Decoder.text) fun v j => { j with schemaReference := v },
      .spare "gap" Length.decoder fun v j => { j with gap := v },
      .needed "tapes" (Decoder.sequence TapeEntry.schema.read) fun v j => { j with tapes := v }]

def ofDocument (text : String) : Result Job :=
  decodeText schema.read text

end Job

end CarrierTape
