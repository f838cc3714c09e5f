import CarrierTape.Binary64.Basic

/-!
The shortest decimal of a binary64 magnitude: the point of the coarsest decimal
grid that still reads back as that magnitude. Reading back is `nearest` itself,
so the search needs no interval of its own. On each grid only the two neighbours
of the exact value are tried, the nearer one first.
-/

namespace CarrierTape

/-- The decimal `digits * 10 ^ exponent`. -/
structure Decimal where
  digits : Nat
  exponent : Int
deriving DecidableEq

namespace Decimal

open Binary64

-- The power of the core library, also where another one is at hand.
attribute [local instance (high)] instPowNat

/-- Which of two equally near grid points is taken. -/
inductive Tie where
  | upper
  | even
deriving DecidableEq

def ReadsBack (m : Nat) (d : Decimal) : Prop :=
  nearest (d.digits * 10 ^ d.exponent.toNat * unit) (10 ^ (-d.exponent).toNat) = m

instance (m : Nat) (d : Decimal) : Decidable (ReadsBack m d) :=
  inferInstanceAs (Decidable (_ = _))

/-- The two neighbours of `m` among the multiples of `10 ^ exponent`, the nearer
one first. -/
def neighbours (tie : Tie) (m : Nat) (exponent : Int) : List Decimal :=
  let n := m * 10 ^ (-exponent).toNat
  let d := unit * 10 ^ exponent.toNat
  let lower := n / d
  let twice := 2 * (n % d)
  if twice < d ∨ (twice = d ∧ tie = .even ∧ lower % 2 = 0) then
    [⟨lower, exponent⟩, ⟨lower + 1, exponent⟩]
  else [⟨lower + 1, exponent⟩, ⟨lower, exponent⟩]

/-- Searches the grids from `10 ^ (finer - 1074)` down. On the last of them every
magnitude lies exactly. -/
def coarsest (tie : Tie) (m : Nat) : Nat → Decimal
  | 0 => ⟨m * 5 ^ fractionBits, -fractionBits⟩
  | finer + 1 =>
    match (neighbours tie m ((finer + 1 : Nat) - fractionBits)).find? (ReadsBack m ·) with
    | some d => d
    | none => coarsest tie m finer

/-- The decimal with the fewest digits that reads back as `m`, and the nearest of
those. The search starts at a power of ten above `m`, since 8^(k+1) exceeds a
number of at most 3k + 3 bits. -/
def shortest (tie : Tie) (m : Nat) : Decimal :=
  if m = 0 then ⟨0, 0⟩
  else coarsest tie m (fractionBits + (m / unit).log2 / 3 + 1)

end Decimal

end CarrierTape
