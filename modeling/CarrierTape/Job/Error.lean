import CarrierTape.FileTree
import CarrierTape.Json.Error
import CarrierTape.Tape.Error

/-!
What can be wrong with a job. Tapes are counted from zero and named as the job
names them.
-/

namespace CarrierTape

/-- A value that a tape needs and cannot take from elsewhere. -/
inductive Missing where
  | tapeWidth
  | partWidth
  | partHeight
deriving DecidableEq

def Missing.message : Missing → String
  | .tapeWidth => "tape_width (or part_hole_offset)"
  | .partWidth => "part_width (or a part code)"
  | .partHeight => "part_height (or a part code)"

inductive EntryError where
  | missing (value : Missing)
  | tape (error : TapeError)
deriving DecidableEq

def EntryError.message : EntryError → String
  | .missing value => "missing " ++ value.message
  | .tape error => error.message

inductive JobError where
  | unreadable (path : String) (error : FileError)
  | unparsable (error : Json.Error)
  | empty
  | entry (index : Nat) (name : String) (error : EntryError)
  | invalidGap (gap : Length)
deriving DecidableEq

def JobError.message : JobError → String
  | .unreadable path _ => "failed to read job file: " ++ path
  | .unparsable error => "failed to parse job: " ++ error.message
  | .empty => "job contains no tapes"
  | .entry index name error => "tape " ++ index.repr ++ " (" ++ name ++ "): " ++ error.message
  | .invalidGap gap =>
    "invalid gap between tapes: must be a non-negative length, got " ++ gap.text

end CarrierTape
