import CarrierTape.Proofs.Binary64.Order
import Mathlib.Algebra.Order.Field.Rat
import Mathlib.Data.Int.ModEq
import Mathlib.Tactic.FieldSimp

/-!
The exact rational behind a number, and what rounding does to a quotient. Both
kinds of rounding in this library go through `roundQuotient`: `NearestEven` says
without remainders what it computes, for results of either sign.
-/

namespace CarrierTape

/-- `k` is the integer nearest to `q`, and the even one if two are equally near. -/
structure NearestEven (q : ℚ) (k : ℤ) : Prop where
  near : |q - k| ≤ 1 / 2
  even : |q - k| = 1 / 2 → Even k

namespace NearestEven

/-- Where a larger value had the smaller integer, both would lie in the middle
between neighbours that are both even. -/
theorem mono {q q' : ℚ} {k k' : ℤ} (h : NearestEven q k) (h' : NearestEven q' k') (hle : q ≤ q') :
    k ≤ k' := by
  by_contra hlt
  have hstep : (k' : ℚ) + 1 ≤ k := by exact_mod_cast Int.not_le.1 hlt
  have hlow := (abs_le.1 h.near).1
  have hhigh := (abs_le.1 h'.near).2
  have hq : q - k = -(1 / 2) := by linarith
  have hq' : q' - k' = 1 / 2 := by linarith
  have hk : k = k' + 1 := by
    have hsum : (k : ℚ) = k' + 1 := by linarith
    exact_mod_cast hsum
  have heven : Even k := h.even (by rw [hq]; norm_num)
  have heven' : Even k' := h'.even (by rw [hq']; norm_num)
  rw [hk, Int.even_add_one] at heven
  exact heven heven'

theorem unique {q : ℚ} {k l : ℤ} (hk : NearestEven q k) (hl : NearestEven q l) : k = l :=
  le_antisymm (hk.mono hl le_rfl) (hl.mono hk le_rfl)

theorem neg {q : ℚ} {k : ℤ} (h : NearestEven q k) : NearestEven (-q) (-k) := by
  have habs : |-q - ((-k : ℤ) : ℚ)| = |q - k| := by
    rw [← abs_neg]
    congr 1
    push_cast
    ring
  exact ⟨habs ▸ h.near, fun heq => (h.even (habs ▸ heq)).neg⟩

theorem floor {k : ℤ} {r : ℚ} (h0 : 0 ≤ r) (h : r < 1 / 2 ∨ r = 1 / 2 ∧ Even k) :
    NearestEven (k + r) k := by
  have hdist : |(k : ℚ) + r - k| = r := by rw [add_sub_cancel_left, abs_of_nonneg h0]
  constructor
  · rw [hdist]
    rcases h with hlt | ⟨heq, -⟩
    · exact hlt.le
    · exact heq.le
  · rw [hdist]
    intro heq
    exact (h.resolve_left heq.not_lt).2

theorem next {k : ℤ} {r : ℚ} (h1 : r ≤ 1) (h : 1 / 2 < r ∨ r = 1 / 2 ∧ Even (k + 1)) :
    NearestEven (k + r) (k + 1) := by
  have hdist : |(k : ℚ) + r - (k + 1 : ℤ)| = 1 - r := by
    have hsub : (k : ℚ) + r - (k + 1 : ℤ) = -(1 - r) := by
      push_cast
      ring
    rw [hsub, abs_neg, abs_of_nonneg (by linarith)]
  constructor
  · rw [hdist]
    rcases h with hlt | ⟨heq, -⟩ <;> linarith
  · rw [hdist]
    intro heq
    exact (h.resolve_left (by linarith)).2

theorem le_multiple {q s : ℚ} {r : ℤ} (h : NearestEven (q / s) r) (hs : 0 < s) (j : ℤ) :
    |q - r * s| ≤ |q - j * s| ∧ (j ≠ r → |q - j * s| = |q - r * s| → Even r) := by
  have hscale (i : ℤ) : |q - i * s| = |q / s - i| * s := by
    rw [← abs_of_pos hs, ← abs_mul, abs_of_pos hs, sub_mul, div_mul_cancel₀ q hs.ne']
  by_cases hj : j = r
  · subst hj
    exact ⟨le_rfl, fun hne => absurd rfl hne⟩
  · have hapart : (1 : ℚ) ≤ |(r : ℚ) - j| := by
      exact_mod_cast Int.one_le_abs (sub_ne_zero.2 (Ne.symm hj))
    have hfar : 1 / 2 ≤ |q / s - j| := by
      have htriangle := abs_sub_le (r : ℚ) (q / s) j
      have hnear := h.near
      rw [abs_sub_comm] at hnear
      linarith
    rw [hscale, hscale]
    refine ⟨mul_le_mul_of_nonneg_right (h.near.trans hfar) hs.le, fun _ heq => h.even ?_⟩
    exact le_antisymm h.near (hfar.trans (mul_right_cancel₀ hs.ne' heq).le)

end NearestEven

namespace Binary64

theorem natCast_div_eq (n : Nat) {d : Nat} (hd : 0 < d) :
    (n : ℚ) / d = (n / d : Nat) + ((n % d : Nat) : ℚ) / d := by
  have hd' : (d : ℚ) ≠ 0 := by exact_mod_cast hd.ne'
  have hsplit : (n : ℚ) = (n / d : Nat) * d + (n % d : Nat) := by
    exact_mod_cast (Nat.div_add_mod' n d).symm
  conv_lhs => rw [hsplit]
  field_simp

theorem nearestEven_roundQuotient (n : Nat) {d : Nat} (hd : 0 < d) :
    NearestEven ((n : ℚ) / d) (roundQuotient n d) := by
  have hpos : (0 : ℚ) < d := by exact_mod_cast hd
  have hshare0 : 0 ≤ ((n % d : Nat) : ℚ) / d := by positivity
  have hshare1 : ((n % d : Nat) : ℚ) / d ≤ 1 :=
    (div_le_one hpos).2 (by exact_mod_cast (Nat.mod_lt n hd).le)
  rw [natCast_div_eq n hd, ← Int.cast_natCast (n / d)]
  rcases Nat.lt_trichotomy (2 * (n % d)) d with hlt | heq | hgt
  · rw [roundQuotient_of_lt_half hlt]
    refine .floor hshare0 (.inl ?_)
    rw [div_lt_div_iff₀ hpos two_pos]
    exact_mod_cast (by omega : n % d * 2 < 1 * d)
  · have hhalf : ((n % d : Nat) : ℚ) / d = 1 / 2 := by
      rw [div_eq_div_iff hpos.ne' two_ne_zero]
      exact_mod_cast (by omega : n % d * 2 = 1 * d)
    rw [roundQuotient_of_half heq]
    split_ifs with heven
    · exact .floor hshare0 (.inr ⟨hhalf, by exact_mod_cast Nat.even_iff.2 heven⟩)
    · refine .next hshare1 (.inr ⟨hhalf, ?_⟩)
      exact_mod_cast Nat.even_add_one.2 (mt Nat.even_iff.1 heven)
  · rw [roundQuotient_of_half_lt hgt]
    refine .next hshare1 (.inl ?_)
    rw [div_lt_div_iff₀ two_pos hpos]
    exact_mod_cast (by omega : 1 * d < n % d * 2)

/-- The exact value of a finite number. -/
def toRat (x : Binary64) : ℚ :=
  x.units / unit

theorem unit_cast_pos : (0 : ℚ) < unit := by
  exact_mod_cast unit_pos

theorem le_iff_toRat_le {x y : Binary64} (hx : x.isFinite) (hy : y.isFinite) :
    x ≤ y ↔ x.toRat ≤ y.toRat := by
  rw [le_iff, toRat, toRat, div_le_div_iff_of_pos_right unit_cast_pos, Int.cast_le]
  exact ⟨fun h => h.2.2, fun h => ⟨ne_nan_of_isFinite hx, ne_nan_of_isFinite hy, h⟩⟩

end Binary64

end CarrierTape
