import CarrierTape.Binary64.Basic

/-!
Decimal numerals as they are written: a sign, the digits before and after the
point, and an exponent. `Numeral.nearest` is the number that a numeral denotes,
rounded once.
-/

namespace CarrierTape.Decimal

/-- The digits are ASCII digits; a part that is not written is empty. -/
structure Numeral where
  negative : Bool
  whole : List Char
  fraction : List Char
  exponent : Option Int
deriving DecidableEq

namespace Numeral

/-- Splits a text after its longest run of digits in front. -/
def takeDigits (cs : List Char) : List Char × List Char :=
  (cs.takeWhile Char.isDigit, cs.dropWhile Char.isDigit)

/-- Reads a sign and digits: the value, and the text after the last digit. -/
def readExponent? (cs : List Char) : Option (Int × List Char) :=
  let (negative, cs) := match cs with
    | '-' :: rest => (true, rest)
    | '+' :: rest => (false, rest)
    | _ => (false, cs)
  let (digits, rest) := takeDigits cs
  if digits.isEmpty then none
  else
    let n : Int := Nat.ofDigitChars 10 digits 0
    some (if negative then -n else n, rest)

/-- The digits on both sides of the point as one natural. -/
def significand (n : Numeral) : Nat :=
  Nat.ofDigitChars 10 (n.whole ++ n.fraction) 0

def scale (n : Numeral) : Int :=
  n.exponent.getD 0 - n.fraction.length

def nearest (n : Numeral) : Binary64 :=
  .ofDecimal n.negative n.significand n.scale

end Numeral

end CarrierTape.Decimal
