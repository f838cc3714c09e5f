import CarrierTape.Decimal.Numeral
import CarrierTape.Decimal.Style

/-!
Numbers in documents. A whole number within 64 bits is an integer. Any other
numeral is read by the short rule: its digits are taken into a significand of 64
bits as long as they fit, and the significand is multiplied or divided by a power
of ten. That rounds up to three times, so the result need not be the nearest number.
Written numbers are shortest decimals that always show a point or an exponent.
-/

namespace CarrierTape

open Decimal

inductive Json.Number where
  | integer (n : Int)
  | float (x : Binary64)
deriving DecidableEq

namespace Json.Number

/-- The number as binary64, rounded if it is an integer that does not fit. -/
def toBinary64 : Number → Binary64
  | .integer (.ofNat n) => .ofNat n
  | .integer (.negSucc n) => -.ofNat (n + 1)
  | .float x => x

end Json.Number

namespace Decimal.Numeral

-- The power of the core library, also where another one is at hand.
attribute [local instance (high)] instPowNat

def digitValue (c : Char) : Nat :=
  c.toNat - '0'.toNat

/-- Digits of the whole part in a significand below 2^64, and how many digits did
not fit any more. -/
def takeWhole (taken dropped : Nat) : List Char → Nat × Nat
  | [] => (taken, dropped)
  | c :: rest =>
    let next := 10 * taken + digitValue c
    if dropped = 0 ∧ next < 2 ^ (64 : Nat) then takeWhole next 0 rest
    else takeWhole taken (dropped + 1) rest

/-- Digits of the fraction in the same significand, and how many did fit. -/
def takeFraction (taken count : Nat) : List Char → Nat × Nat
  | [] => (taken, count)
  | c :: rest =>
    let next := 10 * taken + digitValue c
    if next < 2 ^ (64 : Nat) then takeFraction next (count + 1) rest else (taken, count)

def powerOfTen (k : Nat) : Binary64 :=
  .ofDecimal false 1 k

/-- Divides by `10 ^ k`, by at most 10^308 at a time. Nothing is left to divide once
the quotient is zero. -/
def scaleDown (x : Binary64) (k : Nat) : Binary64 :=
  if k ≤ 308 then x / powerOfTen k
  else if x.isZero then x
  else scaleDown (x / powerOfTen 308) (k - 308)
termination_by k

/-- Multiplies by `10 ^ k`, unless the product is too large for a number. -/
def scaleUp? (x : Binary64) (k : Nat) : Option Binary64 :=
  if 308 < k then if x.isZero then some x else none
  else
    let product := x * powerOfTen k
    if product.isInfinite then none else some product

def scaled? (significand : Nat) : Int → Option Binary64
  | .ofNat k => scaleUp? (.ofNat significand) k
  | .negSucc k => some (scaleDown (.ofNat significand) (k + 1))

/-- The numeral by the short rule, unless it is too large. -/
def short? (n : Numeral) : Option Binary64 :=
  let (taken, dropped) := takeWhole 0 0 n.whole
  let (taken, count) := takeFraction taken 0 n.fraction
  let magnitude := scaled? taken (dropped - count + n.exponent.getD 0)
  if n.negative then magnitude.map Binary64.neg else magnitude

/-- A numeral without a point and an exponent. -/
def isWhole (n : Numeral) : Bool :=
  n.fraction.isEmpty && n.exponent.isNone

/-- The integer that a numeral denotes: below 2^64, from -2^63 on, and not the
negative zero. -/
def integer? (n : Numeral) : Option Int :=
  let (taken, dropped) := takeWhole 0 0 n.whole
  if !n.isWhole || dropped != 0 then none
  else if !n.negative then some taken
  else if taken = 0 ∨ 2 ^ (63 : Nat) < taken then none
  else some (-taken)

def number? (n : Numeral) : Option Json.Number :=
  match n.integer? with
  | some i => some (.integer i)
  | none => n.short?.map .float

/-- A decimal as it is written in documents: without an exponent if its leading
digit stands between 10^-5 and 10^15. -/
def ofDecimal (negative : Bool) (d : Decimal) : Numeral :=
  let digits := Nat.toDigits 10 d.digits
  let leading := d.leadingExponent
  if leading < -5 ∨ 15 < leading then ⟨negative, digits.take 1, digits.drop 1, some leading⟩
  else if leading < 0 then
    ⟨negative, ['0'], List.replicate (-leading - 1).toNat '0' ++ digits, none⟩
  else if leading + 1 < digits.length then
    ⟨negative, digits.take (leading + 1).toNat, digits.drop (leading + 1).toNat, none⟩
  else ⟨negative, digits ++ List.replicate (leading + 1 - digits.length).toNat '0', ['0'], none⟩

def exponentText : Option Int → List Char
  | none => []
  | some (.ofNat n) => 'e' :: '+' :: Nat.toDigits 10 n
  | some (.negSucc n) => 'e' :: '-' :: Nat.toDigits 10 (n + 1)

def text (n : Numeral) : List Char :=
  Style.sign n.negative ++ n.whole ++
    (if n.fraction.isEmpty then [] else '.' :: n.fraction) ++ exponentText n.exponent

end Decimal.Numeral

end CarrierTape
