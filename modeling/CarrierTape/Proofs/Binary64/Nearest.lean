import CarrierTape.Proofs.Binary64.Exact
import Mathlib.Data.Nat.Cast.Order.Field

/-!
What it means that a number is the nearest one, without a word about how it is found.
`NearestOnGrid` compares distances to all points of the grid, which here has no end, and
sends ties to the neighbour whose last significant bit is zero; this determines the point
(`NearestOnGrid.unique`). `NearestTo` cuts the grid off where numbers become infinite. The
number that is computed for a decimal is the nearest one (`nearestTo_ofDecimal`).
-/

namespace CarrierTape.Binary64

-- Numbers of more than a thousand bits, which are never to be unfolded in search of a match.
attribute [local irreducible] limit unit

/-! ### The grid -/

/-- A significand of 53 bits fixes the spacing, unless the grid is as fine as it gets. -/
theorem spacing_mul_two_pow {r a : Nat} (hr : r < 2 ^ 53) (ha : a = 0 ∨ 2 ^ 52 ≤ r) :
    spacing (r * 2 ^ a) = 2 ^ a := by
  rcases Nat.eq_zero_or_pos r with rfl | hpos
  · have hzero : a = 0 := ha.resolve_right (by decide)
    subst hzero
    rfl
  · have hlog : r.log2 < 53 := (Nat.log2_lt hpos.ne').2 hr
    have hne : r * 2 ^ a ≠ 0 := Nat.mul_ne_zero hpos.ne' (Nat.two_pow_pos a).ne'
    have hmul : (r * 2 ^ a).log2 = r.log2 + a := by
      rw [Nat.log2_eq_iff hne, Nat.pow_add, Nat.add_right_comm, Nat.pow_add]
      exact ⟨Nat.mul_le_mul_right _ (Nat.log2_self_le hpos.ne'),
        Nat.mul_lt_mul_of_pos_right Nat.lt_log2_self (Nat.two_pow_pos a)⟩
    have hlow : a = 0 ∨ 52 ≤ r.log2 := ha.imp_right fun h => (Nat.le_log2 hpos.ne').2 h
    rw [spacing, hmul]
    congr 1
    omega

/-- Every grid point is a significand times a power of two, as in `spacing_mul_two_pow`. -/
theorem exists_significand {m : Nat} (h : Aligned m) :
    ∃ r a, m = r * 2 ^ a ∧ r < 2 ^ 53 ∧ (a = 0 ∨ 2 ^ 52 ≤ r) := by
  obtain ⟨r, hr⟩ := Nat.dvd_of_mod_eq_zero h
  refine ⟨r, m.log2 - 52, by rw [Nat.mul_comm]; exact hr, ?_, ?_⟩
  · by_contra hlarge
    have hge : 2 ^ 53 * 2 ^ (m.log2 - 52) ≤ m := by
      conv_rhs => rw [hr, Nat.mul_comm]
      exact Nat.mul_le_mul_right _ (Nat.not_lt.1 hlarge)
    have hlog : m < 2 ^ (m.log2 + 1) := Nat.lt_log2_self
    have hpow : 2 ^ (m.log2 + 1) ≤ 2 ^ 53 * 2 ^ (m.log2 - 52) := by
      rw [← Nat.pow_add]
      exact Nat.pow_le_pow_right two_pos (by omega)
    omega
  · rcases Nat.eq_zero_or_pos (m.log2 - 52) with hzero | hpos
    · exact .inl hzero
    · right
      have hne : m ≠ 0 := by
        rintro rfl
        simp at hpos
      have hlow : 2 ^ 52 * 2 ^ (m.log2 - 52) ≤ r * 2 ^ (m.log2 - 52) := by
        rw [← Nat.pow_add, Nat.add_sub_cancel' (by omega), Nat.mul_comm r]
        exact (Nat.log2_self_le hne).trans hr.le
      exact Nat.le_of_mul_le_mul_right hlow (Nat.two_pow_pos _)

theorem spacing_dvd {m k : Nat} (hlog : m.log2 ≤ k.log2) (h : Aligned k) : spacing m ∣ k :=
  (Nat.pow_dvd_pow 2 (by omega)).trans (Nat.dvd_of_mod_eq_zero h)

theorem log2_mono {m k : Nat} (h : m ≤ k) : m.log2 ≤ k.log2 := by
  by_cases hm : m = 0
  · simp [hm]
  · have hk : k ≠ 0 := by omega
    exact (Nat.le_log2 hk).2 ((Nat.log2_self_le hm).trans h)

theorem aligned_add_spacing {m : Nat} (h : Aligned m) : Aligned (m + spacing m) := by
  obtain ⟨r, a, rfl, hr, ha⟩ := exists_significand h
  rw [spacing_mul_two_pow hr ha, ← Nat.succ_mul]
  exact aligned_mul_pow hr

/-- Neighbours on the grid are not both even. -/
theorem not_even_add_spacing {m : Nat} (h : Aligned m) (heven : Even (m / spacing m)) :
    ¬ Even ((m + spacing m) / spacing (m + spacing m)) := by
  obtain ⟨r, a, rfl, hr, ha⟩ := exists_significand h
  rw [spacing_mul_two_pow hr ha] at heven ⊢
  rw [Nat.mul_div_cancel r (Nat.two_pow_pos a)] at heven
  have hlt : r + 1 < 2 ^ 53 := by
    refine Nat.lt_of_le_of_ne hr fun heq => ?_
    obtain ⟨j, hj⟩ := heven
    omega
  rw [← Nat.succ_mul, spacing_mul_two_pow hlt (ha.imp_right fun h => h.trans (Nat.le_succ r)),
    Nat.mul_div_cancel _ (Nat.two_pow_pos a), Nat.even_add_one]
  exact not_not.2 heven

/-! ### The nearest point -/

/-- The grid point nearest to so many units, and the even one if two are equally near. -/
structure NearestOnGrid (q : ℚ) (m : Nat) : Prop where
  aligned : Aligned m
  near : ∀ k, Aligned k → |q - m| ≤ |q - k|
  even : ∀ k, Aligned k → k ≠ m → |q - k| = |q - m| → Even (m / spacing m)

/-- Two nearest points would be neighbours, and even both. -/
theorem NearestOnGrid.unique {q : ℚ} {m k : Nat} (hm : NearestOnGrid q m)
    (hk : NearestOnGrid q k) : m = k := by
  wlog hle : m ≤ k generalizing m k
  · exact (this hk hm (Nat.le_of_not_le hle)).symm
  by_contra hne
  have hlt : m < k := Nat.lt_of_le_of_ne hle hne
  have hsame : |q - m| = |q - k| := le_antisymm (hm.near k hk.aligned) (hk.near m hm.aligned)
  have hmiddle : q - m = k - q := by
    rcases abs_eq_abs.1 hsame with heq | heq
    · have hcast : (m : ℚ) = k := by linarith
      exact absurd (by exact_mod_cast hcast) hne
    · linarith
  have hstep : m + spacing m ≤ k := by
    obtain ⟨i, hi⟩ := spacing_dvd le_rfl hm.aligned
    obtain ⟨j, hj⟩ := spacing_dvd (log2_mono hle) hk.aligned
    have hij : i < j := Nat.lt_of_mul_lt_mul_left (a := spacing m) (by rw [← hi, ← hj]; exact hlt)
    calc m + spacing m = spacing m * (i + 1) := by rw [Nat.mul_succ, ← hi]
      _ ≤ spacing m * j := Nat.mul_le_mul_left _ hij
      _ = k := hj.symm
  rcases Nat.lt_or_eq_of_le hstep with hinside | heq
  · -- a grid point between the two would be nearer than both
    have hnear := hm.near (m + spacing m) (aligned_add_spacing hm.aligned)
    have hlow : (m : ℚ) < (m + spacing m : Nat) := by
      exact_mod_cast Nat.lt_add_of_pos_right (spacing_pos m)
    have hhigh : ((m + spacing m : Nat) : ℚ) < k := by exact_mod_cast hinside
    have hpos : 0 ≤ q - m := by linarith
    rw [abs_of_nonneg hpos] at hnear
    exact absurd hnear (not_le.2 (abs_lt.2 ⟨by linarith, by linarith⟩))
  · have hevenM := hm.even k hk.aligned (Ne.symm hne) hsame.symm
    have hevenK := hk.even m hm.aligned hne hsame
    rw [← heq] at hevenK
    exact not_even_add_spacing hm.aligned hevenM hevenK

theorem even_div_spacing {r a : Nat} (hr : r ≤ 2 ^ 53) (ha : a = 0 ∨ 2 ^ 52 ≤ r) (h : Even r) :
    Even (r * 2 ^ a / spacing (r * 2 ^ a)) := by
  rcases Nat.lt_or_eq_of_le hr with hlt | rfl
  · rwa [spacing_mul_two_pow hlt ha, Nat.mul_div_cancel r (Nat.two_pow_pos a)]
  · have hsplit : 2 ^ 53 * 2 ^ a = 2 ^ 52 * 2 ^ (a + 1) := by ring
    rw [hsplit, spacing_mul_two_pow (by decide) (.inr le_rfl),
      Nat.mul_div_cancel _ (Nat.two_pow_pos _)]
    decide

/-- What is rounded to the spacing of its own binade has 53 bits, or is the power of two
above them. -/
theorem roundQuotient_bounds (n d : Nat) :
    roundQuotient n (d * spacing (n / d)) ≤ 2 ^ 53 ∧
      ((n / d).log2 - 52 = 0 ∨ 2 ^ 52 ≤ roundQuotient n (d * spacing (n / d))) := by
  set f := n / d with hf
  have hdiv : n / (d * spacing f) = f / spacing f := by rw [hf, Nat.div_div_eq_div_mul]
  have hquot : f / spacing f < 2 ^ 53 := by
    refine Nat.div_lt_of_lt_mul ?_
    rw [spacing, ← Nat.pow_add]
    exact Nat.lt_log2_self.trans_le (Nat.pow_le_pow_right two_pos (by omega))
  have hup := roundQuotient_le n (d * spacing f)
  have hlow := le_roundQuotient n (d * spacing f)
  rw [hdiv] at hup hlow
  refine ⟨by omega, ?_⟩
  by_cases hfine : f.log2 - 52 = 0
  · exact .inl hfine
  · right
    have hne : f ≠ 0 := by
      intro hzero
      simp [hzero] at hfine
    refine le_trans ?_ hlow
    rw [Nat.le_div_iff_mul_le (spacing_pos f), spacing, ← Nat.pow_add,
      Nat.add_sub_cancel' (by omega)]
    exact Nat.log2_self_le hne

theorem nearest_le_multiple (n : Nat) {d k : Nat} (hd : 0 < d) (hk : spacing (n / d) ∣ k) :
    |(n : ℚ) / d - nearest n d| ≤ |(n : ℚ) / d - k| ∧
      (k ≠ nearest n d → |(n : ℚ) / d - k| = |(n : ℚ) / d - nearest n d| →
        Even (roundQuotient n (d * spacing (n / d)))) := by
  obtain ⟨j, rfl⟩ := hk
  have hpos : (0 : ℚ) < spacing (n / d) := by exact_mod_cast spacing_pos (n / d)
  have hround : NearestEven ((n : ℚ) / d / spacing (n / d))
      (roundQuotient n (d * spacing (n / d))) := by
    rw [div_div, ← Nat.cast_mul]
    exact nearestEven_roundQuotient n (Nat.mul_pos hd (spacing_pos _))
  obtain ⟨hle, heven⟩ := hround.le_multiple hpos j
  rw [nearest, Nat.mul_comm (spacing (n / d)) j]
  push_cast at hle heven ⊢
  refine ⟨hle, fun hne heq => ?_⟩
  have hother : (j : ℤ) ≠ roundQuotient n (d * spacing (n / d)) := by
    intro hcast
    have hnat : j = roundQuotient n (d * spacing (n / d)) := by exact_mod_cast hcast
    exact hne (by rw [hnat])
  exact_mod_cast heven hother heq

/-- Points below the binade of a quotient are farther away than the first point in it. -/
theorem nearest_lt_below (n : Nat) {d k : Nat} (hd : 0 < d) (hk : k.log2 < (n / d).log2) :
    |(n : ℚ) / d - nearest n d| < |(n : ℚ) / d - k| := by
  have hne : n / d ≠ 0 := by
    intro hzero
    simp [hzero] at hk
  have hfirst := (nearest_le_multiple n hd (k := 2 ^ (n / d).log2)
    (Nat.pow_dvd_pow 2 (Nat.sub_le _ _))).1
  have hfloor : ((2 ^ (n / d).log2 : Nat) : ℚ) ≤ n / d :=
    le_trans (by exact_mod_cast Nat.log2_self_le hne) Nat.cast_div_le
  have hbelow : (k : ℚ) < (2 ^ (n / d).log2 : Nat) := by
    exact_mod_cast Nat.lt_log2_self.trans_le (Nat.pow_le_pow_right two_pos hk)
  rw [abs_of_nonneg (sub_nonneg.2 hfloor)] at hfirst
  rw [abs_of_pos (by linarith : (0 : ℚ) < n / d - k)]
  linarith

theorem nearestOnGrid_nearest (n : Nat) {d : Nat} (hd : 0 < d) :
    NearestOnGrid ((n : ℚ) / d) (nearest n d) := by
  refine ⟨aligned_nearest n d, fun k hk => ?_, fun k hk hne heq => ?_⟩ <;>
    rcases Nat.lt_or_ge k.log2 (n / d).log2 with hlt | hge
  · exact (nearest_lt_below n hd hlt).le
  · exact (nearest_le_multiple n hd (spacing_dvd hge hk)).1
  · exact absurd heq (nearest_lt_below n hd hlt).ne'
  · obtain ⟨hle, hlow⟩ := roundQuotient_bounds n d
    exact even_div_spacing hle hlow
      ((nearest_le_multiple n hd (spacing_dvd hge hk)).2 hne heq)

/-! ### The nearest number -/

/-- The number nearest to `q`, or to `-q` if it is `negative`: the nearest point of a grid
without end, and infinite if that lies beyond the finite range. -/
inductive NearestTo (negative : Bool) (q : ℚ) : Binary64 → Prop
  | finite {m : Nat} (h : OnGrid m) (near : NearestOnGrid (q * unit) m) :
    NearestTo negative q (.finite negative m h)
  | infinite {m : Nat} (h : limit ≤ m) (near : NearestOnGrid (q * unit) m) :
    NearestTo negative q (.infinite negative)

theorem NearestTo.unique {negative : Bool} {q : ℚ} {x y : Binary64} (hx : NearestTo negative q x)
    (hy : NearestTo negative q y) : x = y := by
  cases hx with
  | @finite m hm hnear =>
    cases hy with
    | @finite k hk hnear' =>
      obtain rfl := hnear.unique hnear'
      rfl
    | @infinite k hk hnear' =>
      obtain rfl := hnear.unique hnear'
      exact absurd hm.below (Nat.not_lt.2 hk)
  | @infinite m hm hnear =>
    cases hy with
    | @finite k hk hnear' =>
      obtain rfl := hnear.unique hnear'
      exact absurd hk.below (Nat.not_lt.2 hm)
    | infinite hk hnear' => rfl

theorem nearestTo_ofQuotient (negative : Bool) (n : Nat) {d : Nat} (hd : 0 < d) {q : ℚ}
    (hq : q * unit = n / d) : NearestTo negative q (ofQuotient negative n d) := by
  have hnear : NearestOnGrid (q * unit) (nearest n d) := hq ▸ nearestOnGrid_nearest n hd
  unfold ofQuotient
  split
  · exact .finite _ hnear
  · exact .infinite (by omega) hnear

theorem nearestTo_zero (negative : Bool) {n d : Nat} (h : 2 * n < d) {q : ℚ}
    (hq : q * unit = n / d) : NearestTo negative q (zero negative) := by
  have hfloor : n / d = 0 := Nat.div_eq_of_lt (by omega)
  have hmod : n % d = n := Nat.mod_eq_of_lt (by omega)
  have hspacing : spacing 0 = 1 := rfl
  have hzero : nearest n d = 0 := by
    rw [nearest, hfloor, hspacing, Nat.mul_one, Nat.mul_one,
      roundQuotient_of_lt_half (by rw [hmod]; exact h), hfloor]
  have hnear := nearestOnGrid_nearest n (d := d) (by omega)
  rw [hzero, ← hq] at hnear
  exact .finite onGrid_zero hnear

theorem two_pow_le_ten_pow (j : Nat) : 2 ^ (93 * j + 1) ≤ 10 ^ (28 * j + 1) := by
  have hstep : 2 ^ 93 ≤ 10 ^ 28 := by norm_num
  calc 2 ^ (93 * j + 1) = (2 ^ 93) ^ j * 2 := by rw [Nat.pow_succ, Nat.pow_mul]
    _ ≤ (10 ^ 28) ^ j * 10 := Nat.mul_le_mul (Nat.pow_le_pow_left hstep j) (by decide)
    _ = 10 ^ (28 * j + 1) := by rw [Nat.pow_succ 10 (28 * j), Nat.pow_mul]

theorem limit_le_of_large {digits k : Nat} (hdigits : digits ≠ 0) (hk : 308 < k) :
    limit ≤ nearest (digits * 10 ^ k * unit) 1 := by
  -- powers of this size are not to be evaluated, so their exponent gets a name
  obtain ⟨j, hj⟩ : ∃ j, j = 11 := ⟨11, rfl⟩
  have hbits : magnitudeBits = 93 * j + 1 + fractionBits := by rw [hj, magnitudeBits, fractionBits]
  have hpow : 2 ^ (93 * j + 1) ≤ digits * 10 ^ k :=
    calc 2 ^ (93 * j + 1) ≤ 10 ^ (28 * j + 1) := two_pow_le_ten_pow j
      _ ≤ 10 ^ k := Nat.pow_le_pow_right (by decide) (by omega)
      _ ≤ digits * 10 ^ k := Nat.le_mul_of_pos_left _ (Nat.pos_of_ne_zero hdigits)
  have hfloor : 2 ^ magnitudeBits ≤ digits * 10 ^ k * unit / 1 := by
    rw [Nat.div_one, hbits, Nat.pow_add, unit]
    exact Nat.mul_le_mul_right _ hpow
  rw [limit]
  exact two_pow_le_nearest hfloor

/-- So many digits behind the point that less than half a unit is left. -/
theorem twice_lt_of_small {digits k : Nat} (h : digits.log2 + (fractionBits + 2) ≤ 3 * k) :
    2 * (digits * unit) < 10 ^ k := by
  have hlog : digits < 2 ^ (digits.log2 + 1) := Nat.lt_log2_self
  have hexp : digits.log2 + (fractionBits + 2) = digits.log2 + 1 + fractionBits + 1 := by omega
  calc 2 * (digits * unit) = digits * unit * 2 := Nat.mul_comm _ _
    _ < 2 ^ (digits.log2 + 1) * unit * 2 :=
        Nat.mul_lt_mul_of_pos_right (Nat.mul_lt_mul_of_pos_right hlog unit_pos) two_pos
    _ = 2 ^ (digits.log2 + (fractionBits + 2)) := by
        rw [hexp, unit, Nat.pow_succ 2 (_ + fractionBits), Nat.pow_add _ _ fractionBits]
    _ ≤ 2 ^ (3 * k) := Nat.pow_le_pow_right two_pos h
    _ = 8 ^ k := by rw [Nat.pow_mul]
    _ ≤ 10 ^ k := Nat.pow_le_pow_left (by decide) k

theorem nearestTo_ofDecimal (negative : Bool) (digits : Nat) (exponent : ℤ) :
    NearestTo negative (digits * 10 ^ exponent) (ofDecimal negative digits exponent) := by
  cases exponent with
  | ofNat k =>
    have hq : (digits * 10 ^ Int.ofNat k : ℚ) * unit =
        (digits * 10 ^ k * unit : Nat) / (1 : Nat) := by simp
    change NearestTo _ _ (if digits = 0 then _ else if 308 < k then _ else _)
    split_ifs with hzero hlarge
    · subst hzero
      exact nearestTo_zero negative (n := 0) (d := 1) (by decide) (by simp)
    · exact .infinite (limit_le_of_large hzero hlarge) (hq ▸ nearestOnGrid_nearest _ one_pos)
    · exact nearestTo_ofQuotient negative _ one_pos hq
  | negSucc k =>
    have hq : (digits * 10 ^ Int.negSucc k : ℚ) * unit =
        (digits * unit : Nat) / (10 ^ (k + 1) : Nat) := by
      rw [zpow_negSucc]
      push_cast
      ring
    change NearestTo _ _ (if digits.log2 + (fractionBits + 2) ≤ 3 * (k + 1) then _ else _)
    split_ifs with hsmall
    · exact nearestTo_zero negative (twice_lt_of_small hsmall) hq
    · exact nearestTo_ofQuotient negative _ (by positivity) hq

/-! ### Equal quotients -/

theorem nearest_congr {n d n' d' : ℕ} (hd : 0 < d) (hd' : 0 < d') (h : n * d' = n' * d) :
    nearest n d = nearest n' d' :=
  le_antisymm (nearest_mono hd hd' h.le) (nearest_mono hd' hd h.ge)

theorem ofQuotient_congr {negative : Bool} {n d n' d' : ℕ} (h : nearest n d = nearest n' d') :
    ofQuotient negative n d = ofQuotient negative n' d' := by
  simp only [ofQuotient, h]

theorem ofQuotient_of_nearest {negative : Bool} {n d m : ℕ} (hm : OnGrid m)
    (h : nearest n d = m) : ofQuotient negative n d = .finite negative m hm := by
  subst h
  rw [ofQuotient, dif_pos hm.below]

theorem ofQuotient_one {negative : Bool} {m : ℕ} (h : OnGrid m) :
    ofQuotient negative m 1 = .finite negative m h :=
  ofQuotient_of_nearest h (by simpa using nearest_of_aligned h.aligned one_pos)

end CarrierTape.Binary64
