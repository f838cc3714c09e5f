import CarrierTape.Proofs.Binary64.Nearest
import CarrierTape.Proofs.Decimal.Canonical

/-!
Numbers that were rounded to a fixed count of decimals are rounded to the same decimals again
after they have been read. Between the two roundings stands a third one, to the nearest number,
which may be coarser or finer than the decimals. It needs no case for that: the number that was
written is a candidate itself, so the number that is read lies no farther from the decimal
(`count_of_nearestOnGrid`).
-/

namespace CarrierTape

open Binary64 Decimal

-- Numbers of more than a thousand bits, which are never to be unfolded in search of a match.
attribute [local irreducible] limit unit

/-- A value that is no farther from the nearest integer of another one has that same nearest
integer: a tie of the one is a tie of the other. -/
theorem NearestEven.of_closer {q q' : ℚ} {k : ℤ} (h : NearestEven q k)
    (hle : |q' - k| ≤ |q - k|) : NearestEven q' k where
  near := hle.trans h.near
  even heq := h.even (le_antisymm h.near (heq ▸ hle))

namespace Binary64

/-- The end of the range is a grid point: where the grid is wider than one, a finite magnitude
stays a step below it, and elsewhere there is room. -/
theorem OnGrid.add_unit_lt {m : ℕ} (h : OnGrid m) : m + unit < limit := by
  by_cases hcoarse : 53 + fractionBits ≤ m.log2
  · obtain ⟨i, hi⟩ := spacing_dvd le_rfl h.aligned
    obtain ⟨j, hj⟩ := spacing_dvd (log2_mono h.below.le) aligned_limit
    have hij : i < j :=
      Nat.lt_of_mul_lt_mul_left (a := spacing m) (by rw [← hi, ← hj]; exact h.below)
    have hwide : unit < spacing m := by
      rw [unit, spacing]
      exact Nat.pow_lt_pow_right one_lt_two (by omega)
    calc m + unit < m + spacing m := Nat.add_lt_add_left hwide m
      _ = spacing m * (i + 1) := by rw [Nat.mul_succ, ← hi]
      _ ≤ spacing m * j := Nat.mul_le_mul_left _ hij
      _ = limit := hj.symm
  · have hlog : m.log2 + 1 ≤ 53 + fractionBits := Nat.not_le.1 hcoarse
    have hm : m < 2 ^ 53 * unit := by
      rw [two_pow_mul_unit]
      exact Nat.lt_log2_self.trans_le (pow_le_pow_right₀ one_le_two hlog)
    calc m + unit < 2 ^ 53 * unit + unit := Nat.add_lt_add_right hm unit
      _ = (2 ^ 53 + 1) * unit := (Nat.succ_mul _ _).symm
      _ ≤ 2 ^ 54 * unit := Nat.mul_le_mul_right unit (by decide)
      _ < limit := two_pow_mul_unit_lt_limit (by decide)

end Binary64

namespace Decimal.Fixed

theorem abs_count_sub (places n j : ℕ) :
    |((j * 10 ^ places : ℕ) : ℚ) / unit - n| =
      |(n : ℚ) / 10 ^ places * unit - j| * (10 ^ places / unit) := by
  have hunit := unit_cast_pos.ne'
  have hpos : (0 : ℚ) < 10 ^ places / unit := div_pos (by positivity) unit_cast_pos
  rw [abs_sub_comm]
  conv_rhs => rw [← abs_of_pos hpos, ← abs_mul]
  congr 1
  push_cast
  field_simp

theorem count_of_nearestOnGrid {places m k : ℕ} (hm : Aligned m)
    (hk : NearestOnGrid ((count places m : ℚ) / 10 ^ places * unit) k) :
    count places k = count places m := by
  have hcount : NearestEven (((m * 10 ^ places : ℕ) : ℚ) / unit) (count places m) :=
    nearestEven_roundQuotient _ unit_pos
  have hback : NearestEven (((k * 10 ^ places : ℕ) : ℚ) / unit) (count places k) :=
    nearestEven_roundQuotient _ unit_pos
  have hcloser : |((k * 10 ^ places : ℕ) : ℚ) / unit - (count places m : ℤ)| ≤
      |((m * 10 ^ places : ℕ) : ℚ) / unit - (count places m : ℤ)| := by
    rw [Int.cast_natCast, abs_count_sub, abs_count_sub]
    exact mul_le_mul_of_nonneg_right (hk.near m hm) (div_pos (by positivity) unit_cast_pos).le
  have hsame : (count places k : ℤ) = count places m :=
    hback.unique (hcount.of_closer hcloser)
  exact_mod_cast hsame

/-- It is also finite, as the decimal is at most half a place away from a finite number. -/
theorem lt_limit_of_nearestOnGrid {places m k : ℕ} (hm : OnGrid m)
    (hk : NearestOnGrid ((count places m : ℚ) / 10 ^ places * unit) k) : k < limit := by
  set q : ℚ := (count places m : ℚ) / 10 ^ places * unit with hq
  have hnear : |q - m| ≤ unit / 2 := by
    have hround := (nearestEven_roundQuotient (m * 10 ^ places) unit_pos).near
    rw [Int.cast_natCast, ← count, abs_count_sub, ← hq, ← mul_div_assoc,
      div_le_iff₀ unit_cast_pos] at hround
    have hone : (1 : ℚ) ≤ 10 ^ places := one_le_pow₀ (by norm_num)
    calc |q - m| ≤ |q - m| * 10 ^ places := le_mul_of_one_le_right (abs_nonneg _) hone
      _ ≤ 1 / 2 * unit := hround
      _ = unit / 2 := by ring
  have hclose : |q - k| ≤ unit / 2 := (hk.near m hm.aligned).trans hnear
  have hkm : (k : ℚ) ≤ m + unit := by
    have hlow := (abs_le.1 hnear).2
    have hhigh := (abs_le.1 hclose).1
    linarith
  have hle : k ≤ m + unit := by exact_mod_cast hkm
  exact hle.trans_lt hm.add_unit_lt

/-! ### The numerals of both texts -/

def paddedNumeral (places : ℕ) (negative : Bool) (n : ℕ) : Numeral :=
  ⟨negative, wholeDigits places n, fractionDigits places n, none⟩

theorem padded_finite (places : ℕ) (s : Bool) (m : ℕ) (h : OnGrid m) :
    padded places (.finite s m h) = (paddedNumeral places s (count places m)).text := by
  by_cases hnone : fractionDigits places (count places m) = []
  · simp [padded, paddedNumeral, Numeral.text, Numeral.exponentText, join, hnone]
  · simp [padded, paddedNumeral, Numeral.text, Numeral.exponentText, join, hnone]

theorem value_paddedNumeral (places : ℕ) (negative : Bool) (n : ℕ) :
    ((paddedNumeral places negative n).significand : ℚ) *
      10 ^ (paddedNumeral places negative n).scale = n / 10 ^ places := by
  have hsignificand : (paddedNumeral places negative n).significand = n :=
    ofDigitChars_digits places n
  have hscale : (paddedNumeral places negative n).scale = -(places : ℤ) := by
    simp [Numeral.scale, paddedNumeral, length_fractionDigits]
  rw [hsignificand, hscale, zpow_neg, zpow_natCast, div_eq_mul_inv]

theorem value_numeral (places : ℕ) (k : ℤ) :
    ((numeral places k).significand : ℚ) * 10 ^ (numeral places k).scale =
      k.natAbs / 10 ^ places := by
  have hsign : |if (numeral places k).negative then (-1 : ℚ) else 1| = 1 := by
    split <;> simp
  have hscale : (0 : ℚ) < 10 ^ (numeral places k).scale := zpow_pos (by norm_num) _
  have hplaces : (0 : ℚ) < 10 ^ places := by positivity
  have habs : |(numeral places k).toRat| = |(k : ℚ) / 10 ^ places| := by rw [toRat_numeral]
  rwa [Numeral.toRat, abs_mul, abs_mul, abs_div, hsign, one_mul, Nat.abs_cast, abs_of_pos hscale,
    abs_of_pos hplaces, ← Int.cast_abs, ← Nat.cast_natAbs] at habs

theorem signed_numeral (places : ℕ) (k : ℤ) : signed (numeral places k).negative k.natAbs = k := by
  rcases lt_or_ge k 0 with hneg | hnonneg
  · have hnegative : (numeral places k).negative = true := by simp [numeral, hneg]
    rw [hnegative, signed_true]
    omega
  · have hnegative : (numeral places k).negative = false := by simp [numeral, hnonneg.not_gt]
    rw [hnegative, signed_false]
    omega

theorem exists_nearest_of_value {places m : ℕ} (hm : OnGrid m) {n : Numeral}
    (hvalue : (n.significand : ℚ) * 10 ^ n.scale = count places m / 10 ^ places) :
    ∃ k hk, n.nearest = .finite n.negative k hk ∧ count places k = count places m := by
  have hnear := nearestTo_ofDecimal n.negative n.significand n.scale
  rw [hvalue, ← Numeral.nearest] at hnear
  generalize n.nearest = x at hnear
  cases hnear with
  | finite hk hgrid => exact ⟨_, hk, rfl, count_of_nearestOnGrid hm.aligned hgrid⟩
  | infinite hlarge hgrid =>
    exact absurd (lt_limit_of_nearestOnGrid hm hgrid) (Nat.not_lt.2 hlarge)

theorem stripped_nearest (places : ℕ) {x : Binary64} (hx : x.isFinite) :
    ∃ n : Numeral, n.Canonical places ∧ stripped places x = n.text ∧ n.nearest.isFinite ∧
      stripped places n.nearest = stripped places x := by
  obtain ⟨s, m, hm, rfl⟩ := exists_eq_finite hx
  set k := signed s (count places m) with hk
  have hvalue := value_numeral places k
  rw [hk, natAbs_signed] at hvalue
  obtain ⟨m', hm', hnearest, hcount⟩ := exists_nearest_of_value hm hvalue
  refine ⟨numeral places k, canonical_numeral places k, stripped_finite places s m hm, ?_, ?_⟩
  · rw [hnearest, isFinite_finite]
  · have hsign := signed_numeral places k
    rw [hk, natAbs_signed, ← hk] at hsign
    rw [hnearest, stripped_finite, hcount, hsign, stripped_finite]

theorem padded_nearest (places : ℕ) {x : Binary64} (hx : x.isFinite) :
    ∃ negative n, padded places x = (paddedNumeral places negative n).text ∧
      (paddedNumeral places negative n).nearest.isFinite ∧
      padded places (paddedNumeral places negative n).nearest = padded places x := by
  obtain ⟨s, m, hm, rfl⟩ := exists_eq_finite hx
  obtain ⟨m', hm', hnearest, hcount⟩ :=
    exists_nearest_of_value hm (value_paddedNumeral places s (count places m))
  refine ⟨s, count places m, padded_finite places s m hm, ?_, ?_⟩
  · rw [hnearest, isFinite_finite]
  · rw [hnearest, padded_finite, padded_finite, hcount]
    rfl

end Decimal.Fixed

end CarrierTape
