import CarrierTape.Decimal.Style

/-!
What can be wrong with a tape, and how it is said.
-/

namespace CarrierTape

/-- The dimensions of a tape, in the order in which they are declared. -/
inductive Parameter where
  | originX
  | originY
  | tapeWidth
  | tapePitch
  | holeEdgeDistance
  | holeDiameter
  | partHoleOffset
  | partWidth
  | partHeight
  | partCount
deriving DecidableEq

def Parameter.name : Parameter → String
  | .originX => "origin_x"
  | .originY => "origin_y"
  | .tapeWidth => "tape_width"
  | .tapePitch => "tape_pitch"
  | .holeEdgeDistance => "hole_edge_distance"
  | .holeDiameter => "hole_diameter"
  | .partHoleOffset => "part_hole_offset"
  | .partWidth => "part_width"
  | .partHeight => "part_height"
  | .partCount => "part_count"

inductive Problem where
  | notFinite (value : Binary64)
  | negative (value : Binary64)
  | notWhole (value : Binary64)
  /-- A count above the limit, as it was given. -/
  | tooMany (limit : Nat) (value : Binary64)
  | tooManyParts (limit count : Nat)
  /-- A count that makes more records than can be counted. -/
  | tooManyRecords
  /-- A coordinate that depends on the parameter is not finite. -/
  | unplaceable
deriving DecidableEq

def Problem.message : Problem → String
  | .notFinite v => "must be finite, got " ++ v.text
  | .negative v => "must be non-negative, got " ++ v.text
  | .notWhole v => "must be a whole number, got " ++ v.text
  | .tooMany limit v => "must be at most " ++ limit.repr ++ ", got " ++ v.text
  | .tooManyParts limit n => "must be at most " ++ limit.repr ++ ", got " ++ n.repr
  | .tooManyRecords => "too many records"
  | .unplaceable => "places the drawing outside the representable range"

inductive TapeError where
  | invalidParameter (parameter : Parameter) (problem : Problem)
  | unsupportedWidth (width : Binary64)
  | invalidChipCode (code : String)
deriving DecidableEq

namespace TapeError

def parameter? : TapeError → Option Parameter
  | .invalidParameter parameter _ => some parameter
  | _ => none

def message : TapeError → String
  | .invalidParameter parameter problem =>
    "Invalid parameter '" ++ parameter.name ++ "': " ++ problem.message
  | .unsupportedWidth width =>
    "Unsupported tape width: " ++ width.text ++
      " mm (EIA-481 widths are 8, 12, 16, 24, 32, 44, 56 mm)"
  | .invalidChipCode code =>
    "Invalid chip size code '" ++ code ++ "': expected four digits such as 0805"

end TapeError

end CarrierTape
