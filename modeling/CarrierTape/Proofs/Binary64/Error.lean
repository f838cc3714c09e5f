import CarrierTape.Proofs.Binary64.Arithmetic
import CarrierTape.Proofs.Binary64.Exact
import Mathlib.Data.Nat.Cast.Order.Field

/-!
How far computed numbers are from exact ones. Below 2^e neighbours on the grid are at
most 2^e / 2^53 apart, so one rounding costs at most half of that. `Near` keeps such
costs beside a number, and every operation adds the costs of its operands and its own.
-/

namespace CarrierTape.Binary64

-- Numbers of more than a thousand bits, which are never to be unfolded in search of a match.
attribute [local irreducible] limit unit

theorem spacing_le {m e : Nat} (h : m < 2 ^ e) : spacing m ≤ 2 ^ (e - 53) := by
  refine Nat.pow_le_pow_right two_pos ?_
  by_cases hm : m = 0
  · simp [hm]
  · have hlog := (Nat.log2_lt hm).2 h
    omega

theorem abs_nearest_sub_le (n : Nat) {d : Nat} (hd : 0 < d) :
    |(nearest n d : ℚ) - n / d| ≤ spacing (n / d) / 2 := by
  set s := spacing (n / d) with hs
  have hpos : (0 : ℚ) < s := by exact_mod_cast spacing_pos (n / d)
  have hnear := (nearestEven_roundQuotient n (Nat.mul_pos hd (spacing_pos (n / d)))).near
  rw [← hs] at hnear
  have hscaled : (nearest n d : ℚ) - n / d =
      -((n : ℚ) / (d * s : Nat) - (roundQuotient n (d * s) : ℤ)) * s := by
    rw [nearest, ← hs]
    push_cast
    field_simp
    ring
  calc |(nearest n d : ℚ) - n / d|
      = |(n : ℚ) / (d * s : Nat) - (roundQuotient n (d * s) : ℤ)| * s := by
        rw [hscaled, abs_mul, abs_neg, abs_of_pos hpos]
    _ ≤ 1 / 2 * s := mul_le_mul_of_nonneg_right hnear hpos.le
    _ = s / 2 := by ring

/-- Results far enough from the end of the finite range are rounded to the grid, and the
end of the range does not cut them off. -/
theorem rounded_eq_nearest {n d e : Nat} (he : e < magnitudeBits) (h : n / d < 2 ^ e) :
    rounded n d = nearest n d ∧ nearest n d < limit := by
  have hlimit : nearest n d < limit := by
    refine (nearest_le_two_pow h).trans_lt ?_
    rw [limit]
    exact Nat.pow_lt_pow_right one_lt_two he
  rw [rounded_natCast, Nat.min_eq_left hlimit.le]
  exact ⟨rfl, hlimit⟩

/-- Rounding moves a result below 2^e by at most 2^e / 2^54, and leaves it finite. -/
theorem abs_rounded_sub_le {k : ℤ} {d e : Nat} (hd : 0 < d) (he : 53 ≤ e)
    (he' : e < magnitudeBits) (h : |(k : ℚ) / d| < 2 ^ e) :
    |(rounded k d : ℚ) - k / d| ≤ 2 ^ e / 2 ^ 54 ∧ |rounded k d| < limit := by
  have hnat (n : Nat) (hn : |((n : ℤ) : ℚ) / d| < 2 ^ e) :
      |(rounded n d : ℚ) - (n : ℤ) / d| ≤ 2 ^ e / 2 ^ 54 ∧ |rounded n d| < limit := by
    have hlt : n / d < 2 ^ e := by
      rw [Int.cast_natCast, abs_of_nonneg (by positivity)] at hn
      have hfloor : ((n / d : Nat) : ℚ) ≤ n / d := Nat.cast_div_le
      exact_mod_cast hfloor.trans_lt hn
    obtain ⟨hrounded, hlimit⟩ := rounded_eq_nearest he' hlt
    have hspacing : (spacing (n / d) : ℚ) ≤ 2 ^ e / 2 ^ 53 := by
      rw [div_eq_mul_inv, ← pow_sub₀ _ two_ne_zero he]
      exact_mod_cast spacing_le hlt
    rw [hrounded, Int.cast_natCast, Int.cast_natCast]
    constructor
    · calc |(nearest n d : ℚ) - n / d| ≤ spacing (n / d) / 2 := abs_nearest_sub_le n hd
        _ ≤ 2 ^ e / 2 ^ 53 / 2 := by gcongr
        _ = 2 ^ e / 2 ^ 54 := by ring
    · rw [Nat.abs_cast]
      exact_mod_cast hlimit
  obtain ⟨n, rfl | rfl⟩ := k.eq_nat_or_neg
  · exact hnat n h
  · have hmirror : |((rounded (-(n : ℤ)) d : ℤ) : ℚ) - ((-(n : ℤ) : ℤ) : ℚ) / d| =
        |(rounded n d : ℚ) - (n : ℤ) / d| := by
      rw [rounded_neg _ hd, ← abs_neg]
      congr 1
      push_cast
      ring
    rw [hmirror, rounded_neg _ hd, abs_neg]
    refine hnat n ?_
    rwa [Int.cast_neg, neg_div, abs_neg] at h

/-- A finite number at most `error` away from `q`. -/
structure Near (x : Binary64) (q error : ℚ) : Prop where
  finite : x.isFinite
  error : |x.toRat - q| ≤ error

theorem near_self {x : Binary64} (hx : x.isFinite) : Near x x.toRat 0 :=
  ⟨hx, by rw [sub_self, abs_zero]⟩

theorem Near.mono {x : Binary64} {q e e' : ℚ} (h : Near x q e) (hle : e ≤ e') : Near x q e' :=
  ⟨h.finite, h.error.trans hle⟩

theorem Near.trans {x : Binary64} {p q e e' : ℚ} (h : Near x p e) (hpq : |p - q| ≤ e') :
    Near x q (e + e') :=
  ⟨h.finite, (abs_sub_le _ p _).trans (add_le_add h.error hpq)⟩

theorem toRat_mul_unit (x : Binary64) : x.toRat * unit = x.units :=
  div_mul_cancel₀ _ unit_cast_pos.ne'

/-- One rounding of an exact result below 2^e. -/
theorem near_of_units_eq_rounded {x : Binary64} (hx : x ≠ .nan) {k : ℤ} {d : Nat} (hd : 0 < d)
    (hunits : x.units = rounded k d) {q : ℚ} (hq : (k : ℚ) / d = q * unit) {e : Nat}
    (he : e ≤ 1023) (hlt : |q| < 2 ^ e) : Near x q (2 ^ e / 2 ^ 54) := by
  have hpow : (unit : ℚ) = 2 ^ fractionBits := by
    rw [unit, Nat.cast_pow, Nat.cast_ofNat]
  have hsmall : |(k : ℚ) / d| < 2 ^ (e + fractionBits) := by
    rw [hq, abs_mul, abs_of_pos unit_cast_pos, pow_add, hpow]
    exact mul_lt_mul_of_pos_right hlt (by positivity)
  have hbits : e + fractionBits < magnitudeBits := by
    simp only [fractionBits, magnitudeBits]
    omega
  have hgrid : 53 ≤ e + fractionBits := by
    simp only [fractionBits]
    omega
  obtain ⟨herror, hfinite⟩ := abs_rounded_sub_le hd hgrid hbits hsmall
  rw [← hunits] at herror hfinite
  refine ⟨isFinite_iff.2 ⟨hx, (abs_lt.1 hfinite).1, (abs_lt.1 hfinite).2⟩, ?_⟩
  have hscaled : x.toRat - q = ((x.units : ℚ) - k / d) / unit := by
    rw [hq, ← toRat_mul_unit, ← sub_mul, mul_div_cancel_right₀ _ unit_cast_pos.ne']
  rw [hscaled, abs_div, abs_of_pos unit_cast_pos, div_le_iff₀ unit_cast_pos]
  refine herror.trans_eq ?_
  rw [pow_add, hpow]
  ring

theorem near_add {a b : Binary64} (ha : a.isFinite) (hb : b.isFinite) {e : Nat} (he : e ≤ 1023)
    (h : |a.toRat + b.toRat| < 2 ^ e) : Near (a + b) (a.toRat + b.toRat) (2 ^ e / 2 ^ 54) := by
  refine near_of_units_eq_rounded (add_ne_nan ha (ne_nan_of_isFinite hb)) one_pos
    (units_add ha hb) ?_ he h
  rw [add_mul, toRat_mul_unit, toRat_mul_unit]
  simp

theorem near_mul {a b : Binary64} (ha : a.isFinite) (hb : b.isFinite) {e : Nat} (he : e ≤ 1023)
    (h : |a.toRat * b.toRat| < 2 ^ e) : Near (a * b) (a.toRat * b.toRat) (2 ^ e / 2 ^ 54) := by
  refine near_of_units_eq_rounded (mul_ne_nan ha hb) unit_pos (units_mul ha hb) ?_ he h
  rw [Int.cast_mul, ← toRat_mul_unit, ← toRat_mul_unit, div_eq_iff unit_cast_pos.ne']
  ring

theorem near_half {a : Binary64} (ha : a.isFinite) {e : Nat} (he : e ≤ 1023)
    (h : |a.toRat / 2| < 2 ^ e) : Near (a / 2) (a.toRat / 2) (2 ^ e / 2 ^ 54) := by
  refine near_of_units_eq_rounded (half_ne_nan ha) (Nat.mul_pos two_pos unit_pos)
    (units_half ha) ?_ he h
  rw [Int.cast_mul, ← toRat_mul_unit, Nat.cast_mul]
  have hne := unit_cast_pos.ne'
  push_cast
  field_simp

theorem toRat_nonneg {a : Binary64} (h : 0 ≤ a) : 0 ≤ a.toRat :=
  div_nonneg (Int.cast_nonneg (nonneg_iff.1 h).2) unit_cast_pos.le

theorem toRat_neg (a : Binary64) : (-a).toRat = -a.toRat := by
  rw [toRat, units_neg, Int.cast_neg, neg_div, toRat]

theorem Near.neg {a : Binary64} {q e : ℚ} (h : Near a q e) : Near (-a) (-q) e := by
  refine ⟨(isFinite_neg a).trans h.finite, ?_⟩
  rw [toRat_neg, ← neg_sub', abs_neg]
  exact h.error

theorem toRat_ofNat {n : Nat} (h : n ≤ 2 ^ 53) : (ofNat n).toRat = n := by
  rw [ofNat_eq h, toRat, units_finite, signed_false]
  push_cast
  exact mul_div_cancel_right₀ _ unit_cast_pos.ne'

theorem units_ofNat_add_one {n : Nat} (h : n + 1 ≤ 2 ^ 53) :
    (ofNat n + 1).units = (ofNat (n + 1)).units := by
  have hone : (1 : Binary64) = ofNat 1 := rfl
  have hsum : (ofNat n).units + (ofNat 1).units = (ofNat (n + 1)).units * (1 : Nat) := by
    rw [ofNat_eq (by omega), ofNat_eq (by omega), ofNat_eq h]
    simp only [units_finite, signed_false]
    push_cast
    ring
  rw [hone, units_add (isFinite_ofNat (by omega)) (isFinite_ofNat (by omega)), hsum]
  exact rounded_units _ one_pos

theorem isFinite_ofNat_add_one {n : Nat} (h : n + 1 ≤ 2 ^ 53) : (ofNat n + 1).isFinite := by
  have hnan : ofNat n + 1 ≠ .nan := add_ne_nan (isFinite_ofNat (by omega)) (ofNat_ne_nan 1)
  rw [isFinite_iff, units_ofNat_add_one h]
  exact ⟨hnan, (isFinite_iff.1 (isFinite_ofNat h)).2⟩

theorem toRat_ofNat_add_one {n : Nat} (h : n + 1 ≤ 2 ^ 53) : (ofNat n + 1).toRat = n + 1 := by
  rw [toRat, units_ofNat_add_one h, ← toRat, toRat_ofNat h, Nat.cast_succ]

/-- A sum of numbers that are themselves computed: their costs, and one rounding. -/
theorem Near.add {a b : Binary64} {p q ea eb : ℚ} (ha : Near a p ea) (hb : Near b q eb) {e : Nat}
    (he : e ≤ 1023) (h : |p + q| + (ea + eb) < 2 ^ e) :
    Near (a + b) (p + q) (2 ^ e / 2 ^ 54 + (ea + eb)) := by
  have hmoved : |a.toRat + b.toRat - (p + q)| ≤ ea + eb := by
    rw [add_sub_add_comm]
    exact (abs_add_le _ _).trans (add_le_add ha.error hb.error)
  have hsum : |a.toRat + b.toRat| < 2 ^ e := by
    have htriangle := abs_add_le (p + q) (a.toRat + b.toRat - (p + q))
    rw [add_sub_cancel] at htriangle
    linarith
  exact (near_add ha.finite hb.finite he hsum).trans hmoved

end CarrierTape.Binary64
