import CarrierTape.Binary64.Rounding

/-!
IEEE 754 binary64 numbers as exact magnitudes with a sign. There is one NaN.
Every operation forms the exact result as a quotient of naturals and rounds it
once, to nearest with ties to even. Equality of terms is identity of numbers, so
it tells the two zeros apart; the arithmetic comparisons are `<` and
`Binary64.equals`.
-/

namespace CarrierTape

inductive Binary64 where
  | nan
  | infinite (negative : Bool)
  /-- The number whose distance from zero is `magnitude` units of 2^-1074. -/
  | finite (negative : Bool) (magnitude : Nat) (onGrid : Binary64.OnGrid magnitude)
deriving DecidableEq

namespace Binary64

-- The power of the core library, also where another one is at hand.
attribute [local instance (high)] instPowNat

def zero (negative : Bool) : Binary64 :=
  .finite negative 0 onGrid_zero

instance : Inhabited Binary64 :=
  ⟨zero false⟩

/-- The number nearest to `n / d` units of 2^-1074, infinite from 2^1024 on. -/
def ofQuotient (negative : Bool) (n d : Nat) : Binary64 :=
  if h : nearest n d < limit then .finite negative (nearest n d) (onGrid_nearest h)
  else .infinite negative

def ofNat (n : Nat) : Binary64 :=
  ofQuotient false (n * unit) 1

/-- The number nearest to `digits * 10 ^ exponent`. The two early answers keep
huge exponents cheap: 10^309 is beyond the finite range, and a quotient below
half a unit rounds to zero. -/
def ofDecimal (negative : Bool) (digits : Nat) (exponent : Int) : Binary64 :=
  match exponent with
  | .ofNat k =>
    if digits = 0 then zero negative
    else if 308 < k then .infinite negative
    else ofQuotient negative (digits * 10 ^ k * unit) 1
  | .negSucc k =>
    if digits.log2 + (fractionBits + 2) ≤ 3 * (k + 1) then zero negative
    else ofQuotient negative (digits * unit) (10 ^ (k + 1))

instance (n : Nat) : OfNat Binary64 n :=
  ⟨ofNat n⟩

instance : OfScientific Binary64 :=
  ⟨fun digits negativeExponent exponent =>
    ofDecimal false digits (if negativeExponent then -(exponent : Int) else exponent)⟩

def signed (negative : Bool) (magnitude : Nat) : Int :=
  if negative then -(magnitude : Int) else magnitude

/-- The number nearest to a whole number of units. Zero is positive. -/
def ofUnits (units : Int) : Binary64 :=
  ofQuotient (units < 0) units.natAbs 1

def isFinite : Binary64 → Bool
  | .finite .. => true
  | _ => false

def isInfinite : Binary64 → Bool
  | .infinite _ => true
  | _ => false

def isZero : Binary64 → Bool
  | .finite _ m _ => m == 0
  | _ => false

def neg : Binary64 → Binary64
  | .nan => .nan
  | .infinite s => .infinite !s
  | .finite s m h => .finite (!s) m h

def abs : Binary64 → Binary64
  | .nan => .nan
  | .infinite _ => .infinite false
  | .finite _ m h => .finite false m h

/-- A sum that is exactly zero is positive, unless both terms are negative. -/
def add : Binary64 → Binary64 → Binary64
  | .nan, _ | _, .nan => .nan
  | .infinite s, .infinite t => if s = t then .infinite s else .nan
  | .infinite s, .finite .. => .infinite s
  | .finite .., .infinite t => .infinite t
  | .finite s m _, .finite t n _ =>
    if signed s m + signed t n = 0 then zero (s && t)
    else ofUnits (signed s m + signed t n)

def mul : Binary64 → Binary64 → Binary64
  | .nan, _ | _, .nan => .nan
  | .infinite s, .infinite t => .infinite (s ^^ t)
  | .infinite s, .finite t n _ => if n = 0 then .nan else .infinite (s ^^ t)
  | .finite s m _, .infinite t => if m = 0 then .nan else .infinite (s ^^ t)
  | .finite s m _, .finite t n _ => ofQuotient (s ^^ t) (m * n) unit

def div : Binary64 → Binary64 → Binary64
  | .nan, _ | _, .nan => .nan
  | .infinite _, .infinite _ => .nan
  | .infinite s, .finite t _ _ => .infinite (s ^^ t)
  | .finite s _ _, .infinite t => zero (s ^^ t)
  | .finite s m _, .finite t n _ =>
    if n = 0 then if m = 0 then .nan else .infinite (s ^^ t)
    else ofQuotient (s ^^ t) (m * unit) n

instance : Neg Binary64 := ⟨neg⟩
instance : Add Binary64 := ⟨add⟩
instance : Sub Binary64 := ⟨fun a b => add a (neg b)⟩
instance : Mul Binary64 := ⟨mul⟩
instance : Div Binary64 := ⟨div⟩

/-- The arithmetic order: NaN is below nothing, and the zeros are not below
each other. -/
def less : Binary64 → Binary64 → Bool
  | .nan, _ | _, .nan => false
  | .infinite s, .infinite t => s && !t
  | .infinite s, .finite .. => s
  | .finite .., .infinite t => !t
  | .finite s m _, .finite t n _ => signed s m < signed t n

instance : LT Binary64 :=
  ⟨fun a b => less a b = true⟩

instance (a b : Binary64) : Decidable (a < b) :=
  inferInstanceAs (Decidable (less a b = true))

/-- Arithmetic equality: NaN equals nothing, and the zeros are equal. -/
def equals : Binary64 → Binary64 → Bool
  | .infinite s, .infinite t => s == t
  | .finite s m _, .finite t n _ => signed s m == signed t n
  | _, _ => false

/-- The nearest whole number. A half goes away from zero, and the sign is kept. -/
def round : Binary64 → Binary64
  | .finite s m _ => ofQuotient s ((m + unit / 2) / unit * unit) 1
  | x => x

def isWhole : Binary64 → Bool
  | .finite _ m _ => m % unit == 0
  | _ => false

/-- The machine word of so many bits that a number becomes. Its fraction is cut off, the largest
word stands for what is beyond it, and zero stands for NaN and for what is negative. -/
def toWord (bits : Nat) : Binary64 → Nat
  | .nan => 0
  | .infinite negative => if negative then 0 else 2 ^ bits - 1
  | .finite negative m _ => if negative then 0 else min (m / unit) (2 ^ bits - 1)

end Binary64

end CarrierTape
