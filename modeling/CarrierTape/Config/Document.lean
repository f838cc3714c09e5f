import CarrierTape.Config.Basic
import CarrierTape.Json.Schema

/-!
Settings in documents. Everything may be left out, and names that are not settings
are refused. Two members are there for people and editors, and mean nothing.
-/

namespace CarrierTape

open Json

namespace Config

def outputSchema : Schema UInt8 where
  title := "struct OutputConfig"
  blank := standard.decimals
  closed := true
  counted := false
  fields := [.spare "decimals" Decoder.byte fun v _ => v]

def layerSchema : Schema LayerMap where
  title := "struct LayerConfig"
  blank := standard.layers
  closed := true
  counted := false
  fields :=
    [.spare "tape_body" Decoder.byte fun v l => { l with tapeBody := v },
      .spare "holes" Decoder.byte fun v l => { l with holes := v },
      .spare "parts" (Decoder.optional Decoder.byte) fun v l => { l with parts := v }]

def loggingSchema : Schema String where
  title := "struct LoggingConfig"
  blank := standard.level
  closed := true
  counted := false
  fields := [.spare "level" Decoder.text fun v _ => v]

def schema : Schema Config where
  title := "struct Config"
  blank := standard
  closed := true
  counted := false
  fields :=
    [.remark "$schema", .remark "_comment",
      .spare "output" outputSchema.read fun v c => { c with decimals := v },
      .spare "layers" layerSchema.read fun v c => { c with layers := v },
      .spare "logging" loggingSchema.read fun v c => { c with level := v }]

def ofDocument (text : String) : Result Config :=
  decodeText schema.read text

end Config

end CarrierTape
