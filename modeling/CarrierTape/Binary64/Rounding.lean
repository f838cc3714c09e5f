/-!
Rounding of exact quotients to the binary64 grid. Magnitudes are naturals that
count units of 2^-1074, the smallest positive binary64 number, so every finite
magnitude is a natural and every exact result is a quotient of naturals. The
main statement is `onGrid_nearest`: whatever is rounded, the result has at most
53 significant bits.
-/

namespace CarrierTape.Binary64

-- The power of the core library, also where another one is at hand.
attribute [local instance (high)] instPowNat

/-- The natural nearest to `n / d`. A half goes to the even neighbour. -/
def roundQuotient (n d : Nat) : Nat :=
  let q := n / d
  let r := n % d
  if 2 * r < d then q
  else if d < 2 * r then q + 1
  else if q % 2 = 0 then q
  else q + 1

theorem le_roundQuotient (n d : Nat) : n / d ≤ roundQuotient n d := by
  grind [roundQuotient]

theorem roundQuotient_le (n d : Nat) : roundQuotient n d ≤ n / d + 1 := by
  grind [roundQuotient]

/-- The distance between neighbouring grid points in the binade of `m`. Below
2^53 units the grid holds every natural. -/
def spacing (m : Nat) : Nat :=
  2 ^ (m.log2 - 52)

/-- A finite magnitude has at most this many bits. -/
def magnitudeBits : Nat :=
  2098

/-- This many bits of a magnitude stand after the binary point. -/
def fractionBits : Nat :=
  1074

/-- The first magnitude that is no longer finite, 2^1024. -/
def limit : Nat :=
  2 ^ magnitudeBits

def unit : Nat :=
  2 ^ fractionBits

/-- Magnitudes with at most 53 significant bits. -/
def Aligned (m : Nat) : Prop :=
  m % spacing m = 0

instance (m : Nat) : Decidable (Aligned m) :=
  inferInstanceAs (Decidable (m % spacing m = 0))

theorem aligned_of_lt {m : Nat} (h : m < 2 ^ (53 : Nat)) : Aligned m := by
  by_cases hm : m = 0
  · simp [Aligned, hm]
  · have hlog : m.log2 < 53 := (Nat.log2_lt hm).2 h
    have hzero : m.log2 - 52 = 0 := by omega
    simp [Aligned, spacing, hzero, Nat.mod_one]

theorem aligned_mul_pow {r e : Nat} (h : r ≤ 2 ^ (53 : Nat)) : Aligned (r * 2 ^ e) := by
  by_cases hr : r = 0
  · simp [Aligned, hr]
  · have hpos : r * 2 ^ e ≠ 0 := Nat.mul_ne_zero hr (Nat.ne_of_gt (Nat.two_pow_pos e))
    have hdvd : 2 ^ ((r * 2 ^ e).log2 - 52) ∣ r * 2 ^ e := by
      rcases Nat.lt_or_eq_of_le h with hlt | heq
      · have hlog : (r * 2 ^ e).log2 < 53 + e := by
          rw [Nat.log2_lt hpos, Nat.pow_add]
          exact Nat.mul_lt_mul_of_pos_right hlt (Nat.pow_pos (by decide))
        exact Nat.dvd_trans (Nat.pow_dvd_pow 2 (by omega)) (Nat.dvd_mul_left _ _)
      · rw [heq, ← Nat.pow_add, Nat.log2_two_pow]
        exact Nat.pow_dvd_pow 2 (by omega)
    exact Nat.mod_eq_zero_of_dvd hdvd

/-- The grid point nearest to `n / d`. A half goes to the neighbour whose last
significant bit is zero. -/
def nearest (n d : Nat) : Nat :=
  let s := spacing (n / d)
  roundQuotient n (d * s) * s

theorem aligned_nearest (n d : Nat) : Aligned (nearest n d) := by
  have hquot : n / (d * spacing (n / d)) < 2 ^ (53 : Nat) := by
    rw [← Nat.div_div_eq_div_mul]
    refine Nat.div_lt_of_lt_mul ?_
    rw [spacing, ← Nat.pow_add]
    exact Nat.lt_of_lt_of_le Nat.lt_log2_self (Nat.pow_le_pow_right (by decide) (by omega))
  have hle := roundQuotient_le n (d * spacing (n / d))
  exact aligned_mul_pow (by omega)

/-- The magnitudes of finite numbers. -/
structure OnGrid (m : Nat) : Prop where
  below : m < limit
  aligned : Aligned m

theorem limit_pos : 0 < limit :=
  Nat.two_pow_pos magnitudeBits

theorem unit_pos : 0 < unit :=
  Nat.two_pow_pos fractionBits

theorem onGrid_zero : OnGrid 0 :=
  ⟨limit_pos, aligned_of_lt (Nat.two_pow_pos 53)⟩

theorem onGrid_nearest {n d : Nat} (h : nearest n d < limit) : OnGrid (nearest n d) :=
  ⟨h, aligned_nearest n d⟩

end CarrierTape.Binary64
