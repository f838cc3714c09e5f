import CarrierTape.Length.Basic
import CarrierTape.Tape.Spec
import CarrierTape.Text.Blank

/-!
EIA-481 embossed carrier tape. All widths share the geometry of their sprocket
holes; the distance from the holes to the pockets grows with the width of the
tape. Chip size codes give the sizes of common parts.
-/

namespace CarrierTape.Standard

def holeDiameter : Binary64 :=
  1.5

def holeEdgeDistance : Binary64 :=
  1.75

/-- Tape widths, each with its distance from the holes to the pockets. -/
def pocketOffsets : List (Binary64 × Binary64) :=
  [(8, 3.5), (12, 5.5), (16, 7.5), (24, 11.5), (32, 14.2), (44, 20.2), (56, 26.2)]

/-- How far a width may be from a standard one. -/
def widthTolerance : Binary64 :=
  1e-6

def pocketOffset? (tapeWidth : Binary64) : Option Binary64 :=
  (pocketOffsets.find? fun entry => (entry.1 - tapeWidth).abs < widthTolerance).map (·.2)

/-- Up to 24 mm, the offset and half a millimetre are half the tape's width. -/
def widthForOffset (offset : Binary64) : Binary64 :=
  (offset + 0.5).round * 2

def tape (tapeWidth tapePitch partWidth partHeight : Binary64) (partCount : Nat) :
    Except TapeError TapeSpec :=
  match pocketOffset? tapeWidth with
  | none => .error (.unsupportedWidth tapeWidth)
  | some partHoleOffset =>
    .ok ⟨0, 0, tapeWidth, tapePitch, holeEdgeDistance, holeDiameter, partHoleOffset,
      partWidth, partHeight, partCount⟩

/-- A body of a part: its length lies along the feed direction. -/
structure ChipSize where
  length : Length
  width : Length
deriving DecidableEq

/-- Two digits as hundredths of an inch. -/
def hundredths (tens ones : Char) : Length :=
  .inches (.ofNat (Nat.ofDigitChars 10 [tens, ones] 0) / 100)

/-- The size behind a code of four digits: `0805` is 0.08 in by 0.05 in. Blanks
around the code are ignored. -/
def chipSize (code : String) : Except TapeError ChipSize :=
  let digits := Text.trim code.toList
  match digits with
  | [a, b, c, d] =>
    if digits.all Char.isDigit then .ok ⟨hundredths a b, hundredths c d⟩
    else .error (.invalidChipCode (String.ofList digits))
  | _ => .error (.invalidChipCode (String.ofList digits))

end CarrierTape.Standard
