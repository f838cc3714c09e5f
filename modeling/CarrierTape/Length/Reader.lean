import CarrierTape.Decimal.Numeral
import CarrierTape.Length.Basic
import CarrierTape.Text.Blank

/-!
Lengths as a user writes them: a decimal numeral, then blanks, then the name of
a unit in any letter case. Without a name the unit is the millimetre. Blanks
around the text are ignored.
-/

namespace CarrierTape

inductive LengthError where
  /-- The text does not have the form of a length. -/
  | invalidNumber (input : String)
  /-- A numeral is followed by letters that name no unit. -/
  | unknownUnit (name : String)
deriving DecidableEq

namespace LengthError

def message : LengthError → String
  | .invalidNumber input => "invalid length '" ++ input ++ "'"
  | .unknownUnit name =>
    "unknown length unit '" ++ name ++ "' (expected one of mm, cm, m, in, ft, mil)"

end LengthError

namespace Length

open Decimal

def readSign : List Char → Bool × List Char
  | '-' :: rest => (true, rest)
  | '+' :: rest => (false, rest)
  | cs => (false, cs)

/-- An exponent counts only if digits follow its mark. -/
def readExponent (cs : List Char) : Option Int × List Char :=
  match cs with
  | c :: rest =>
    if c = 'e' ∨ c = 'E' then
      match Numeral.readExponent? rest with
      | some (exponent, rest) => (some exponent, rest)
      | none => (none, cs)
    else (none, cs)
  | [] => (none, [])

/-- Digits, with a point among them, before or behind them. -/
def readPlaces? (cs : List Char) : Option (List Char × List Char × List Char) :=
  let (whole, rest) := Numeral.takeDigits cs
  let (fraction, rest) := match rest with
    | '.' :: behind => Numeral.takeDigits behind
    | _ => ([], rest)
  if whole.isEmpty && fraction.isEmpty then none else some (whole, fraction, rest)

/-- The longest numeral in front, and the text behind it. -/
def readNumeral? (cs : List Char) : Option (Numeral × List Char) := do
  let (negative, cs) := readSign cs
  let (whole, fraction, cs) ← readPlaces? cs
  let (exponent, cs) := readExponent cs
  return (⟨negative, whole, fraction, exponent⟩, cs)

/-- The numeral and the letters of a trimmed text. -/
def split? (cs : List Char) : Option (Numeral × List Char) := do
  let (numeral, rest) ← readNumeral? cs
  let letters := rest.dropWhile Text.isBlank
  if letters.all Char.isAlpha then some (numeral, letters) else none

def parse (text : String) : Except LengthError Length :=
  match split? (Text.trim text.toList) with
  | none => .error (.invalidNumber text)
  | some (numeral, []) => .ok (millimetres numeral.nearest)
  | some (numeral, letters) =>
    match LengthUnit.ofName? (String.ofList letters) with
    | some units => .ok ⟨numeral.nearest, units⟩
    | none => .error (.unknownUnit (String.ofList letters))

end Length

end CarrierTape
