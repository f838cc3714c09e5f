import CarrierTape.Decimal.Fixed

/-!
The numbers of a drawing script: rounded to at most nine decimals, with no zeros
at the end of the fraction and no sign on zero.
-/

namespace CarrierTape

def maxDecimals : Nat :=
  9

structure NumberFormat where
  decimals : Nat
  decimals_le : decimals ≤ maxDecimals
deriving DecidableEq

namespace NumberFormat

/-- The format with this many decimals, or with `maxDecimals` if that is less. -/
def ofDecimals (n : Nat) : NumberFormat :=
  ⟨min n maxDecimals, Nat.min_le_right n maxDecimals⟩

def standard : NumberFormat :=
  ofDecimals 4

def format (f : NumberFormat) (x : Binary64) : List Char :=
  Decimal.Fixed.stripped f.decimals x

end NumberFormat

end CarrierTape
