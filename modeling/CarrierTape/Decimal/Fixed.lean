import CarrierTape.Decimal.Style

/-!
Numbers with a fixed count of decimal places, rounded from the exact binary
value with ties to even. `padded` writes every place; `stripped` drops the zeros
that end the fraction, then a point with nothing behind it, and the sign of zero.
-/

namespace CarrierTape.Decimal.Fixed

open Binary64

-- The power of the core library, also where another one is at hand.
attribute [local instance (high)] instPowNat

/-- How many units of 10^-places lie nearest to the magnitude `m`. -/
def count (places m : Nat) : Nat :=
  roundQuotient (m * 10 ^ places) unit

def wholeDigits (places n : Nat) : List Char :=
  Nat.toDigits 10 (n / 10 ^ places)

/-- The last `places` digits of a count, zeros in front included. -/
def fractionDigits (places n : Nat) : List Char :=
  if places = 0 then []
  else (Nat.toDigits 10 (n % 10 ^ places)).leftpad places '0'

def dropLastZeros (digits : List Char) : List Char :=
  (digits.reverse.dropWhile (· == '0')).reverse

/-- A whole part and a fraction, with the point left out if nothing follows it. -/
def join (whole fraction : List Char) : List Char :=
  if fraction.isEmpty then whole else whole ++ '.' :: fraction

/-- All `places` places, and the sign also of a number that rounds to zero. -/
def padded (places : Nat) : Binary64 → List Char
  | .finite s m _ =>
    let n := count places m
    Style.sign s ++ join (wholeDigits places n) (fractionDigits places n)
  | x => Style.message.render x

/-- The shortest text of the rounded number. -/
def stripped (places : Nat) : Binary64 → List Char
  | .finite s m _ =>
    let n := count places m
    Style.sign (s && n != 0) ++
      join (wholeDigits places n) (dropLastZeros (fractionDigits places n))
  | x => Style.message.render x

end CarrierTape.Decimal.Fixed
