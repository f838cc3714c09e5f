import CarrierTape.Binary64.Rounding
import Mathlib.Tactic.Ring

/-!
Rounding respects the order of exact results and leaves grid points where they
are. `n / d ≤ n' / d'` is written without division, as `n * d' ≤ n' * d`. The
spacing of the grid changes only at powers of two, which are grid points
themselves, so the case of two binades is decided at the power between them.
-/

namespace CarrierTape.Binary64

theorem roundQuotient_of_half_lt {n d : Nat} (h : d < 2 * (n % d)) :
    roundQuotient n d = n / d + 1 := by
  have hle : ¬ 2 * (n % d) < d := by omega
  simp [roundQuotient, hle, h]

theorem roundQuotient_of_lt_half {n d : Nat} (h : 2 * (n % d) < d) :
    roundQuotient n d = n / d := by
  simp [roundQuotient, h]

theorem roundQuotient_of_half {n d : Nat} (h : 2 * (n % d) = d) :
    roundQuotient n d = if n / d % 2 = 0 then n / d else n / d + 1 := by
  have hlt : ¬ 2 * (n % d) < d := by omega
  have hgt : ¬ d < 2 * (n % d) := by omega
  simp [roundQuotient, hlt, hgt]

theorem roundQuotient_mul (n : Nat) {d : Nat} (hd : 0 < d) : roundQuotient (n * d) d = n := by
  have hmod : n * d % d = 0 := Nat.mul_mod_left n d
  rw [roundQuotient_of_lt_half (by omega), Nat.mul_div_cancel n hd]

/-- The exact quotients are in the order of their floors, and at one floor in the
order of the remainders. -/
theorem div_le_div_of_mul_le {n d n' d' : Nat} (hd : 0 < d) (hd' : 0 < d')
    (h : n * d' ≤ n' * d) : n / d ≤ n' / d' := by
  rw [Nat.le_div_iff_mul_le hd']
  refine Nat.le_of_mul_le_mul_right (c := d) ?_ hd
  calc n / d * d' * d = n / d * d * d' := by ring
    _ ≤ n * d' := Nat.mul_le_mul_right d' (Nat.div_mul_le_self n d)
    _ ≤ n' * d := h

theorem mod_mul_le_of_mul_le {n d n' d' : Nat} (h : n * d' ≤ n' * d) (hq : n / d = n' / d') :
    n % d * d' ≤ n' % d' * d := by
  have hn : n * d' = n / d * d * d' + n % d * d' := by
    rw [← Nat.add_mul, Nat.mul_comm (n / d) d, Nat.div_add_mod]
  have hn' : n' * d = n / d * d * d' + n' % d' * d := by
    rw [hq, Nat.mul_right_comm, ← Nat.add_mul, Nat.mul_comm (n' / d') d', Nat.div_add_mod]
  omega

theorem roundQuotient_mono {n d n' d' : Nat} (hd : 0 < d) (hd' : 0 < d')
    (h : n * d' ≤ n' * d) : roundQuotient n d ≤ roundQuotient n' d' := by
  rcases Nat.lt_or_eq_of_le (div_le_div_of_mul_le hd hd' h) with hlt | heq
  · exact (roundQuotient_le n d).trans (hlt.trans_le (le_roundQuotient n' d'))
  · -- the same floor: the remainder decides, and a tie goes the same way on both sides
    have hmod := mod_mul_le_of_mul_le h heq
    rcases Nat.lt_trichotomy (2 * (n % d)) d with hr | hr | hr
    · rw [roundQuotient_of_lt_half hr, heq]
      exact le_roundQuotient n' d'
    · have hr' : d' ≤ 2 * (n' % d') := by
        refine Nat.le_of_mul_le_mul_right (c := d) ?_ hd
        calc d' * d = 2 * (n % d * d') := by rw [← Nat.mul_assoc, hr, Nat.mul_comm]
          _ ≤ 2 * (n' % d' * d) := Nat.mul_le_mul_left 2 hmod
          _ = 2 * (n' % d') * d := by ring
      rcases Nat.lt_or_eq_of_le hr' with hr' | hr'
      · rw [roundQuotient_of_half_lt hr', ← heq]
        exact roundQuotient_le n d
      · rw [roundQuotient_of_half hr, roundQuotient_of_half hr'.symm, heq]
    · have hr' : d' < 2 * (n' % d') := by
        refine Nat.lt_of_mul_lt_mul_right (a := d) ?_
        calc d' * d = d * d' := Nat.mul_comm d' d
          _ < 2 * (n % d) * d' := Nat.mul_lt_mul_of_pos_right hr hd'
          _ = 2 * (n % d * d') := by ring
          _ ≤ 2 * (n' % d' * d) := Nat.mul_le_mul_left 2 hmod
          _ = 2 * (n' % d') * d := by ring
      rw [roundQuotient_of_half_lt hr, roundQuotient_of_half_lt hr', heq]

theorem spacing_pos (m : Nat) : 0 < spacing m :=
  Nat.two_pow_pos _

theorem nearest_le_two_pow {n d e : Nat} (h : n / d < 2 ^ e) : nearest n d ≤ 2 ^ e := by
  have hexp : (n / d).log2 - 52 ≤ e := by
    by_cases hq : n / d = 0
    · simp [hq]
    · have := (Nat.log2_lt hq).2 h
      omega
  have hpow : spacing (n / d) * 2 ^ (e - ((n / d).log2 - 52)) = 2 ^ e := by
    rw [spacing, ← Nat.pow_add, Nat.add_sub_cancel' hexp]
  have hquot : n / (d * spacing (n / d)) < 2 ^ (e - ((n / d).log2 - 52)) := by
    rw [← Nat.div_div_eq_div_mul]
    exact Nat.div_lt_of_lt_mul (hpow ▸ h)
  calc nearest n d ≤ 2 ^ (e - ((n / d).log2 - 52)) * spacing (n / d) :=
        Nat.mul_le_mul_right _ ((roundQuotient_le n _).trans hquot)
    _ = 2 ^ e := by rw [Nat.mul_comm, hpow]

theorem two_pow_le_nearest {n d e : Nat} (h : 2 ^ e ≤ n / d) : 2 ^ e ≤ nearest n d := by
  have hpos : n / d ≠ 0 := Nat.ne_of_gt ((Nat.two_pow_pos e).trans_le h)
  have hfloor (k : Nat) (hk : 2 ^ k * spacing (n / d) ≤ n / d) :
      2 ^ k ≤ roundQuotient n (d * spacing (n / d)) := by
    refine le_trans ?_ (le_roundQuotient n _)
    rwa [← Nat.div_div_eq_div_mul, Nat.le_div_iff_mul_le (spacing_pos _)]
  rcases Nat.le_total ((n / d).log2 - 52) e with he | he
  · have hpow : 2 ^ (e - ((n / d).log2 - 52)) * spacing (n / d) = 2 ^ e := by
      rw [spacing, ← Nat.pow_add, Nat.sub_add_cancel he]
    calc 2 ^ e = 2 ^ (e - ((n / d).log2 - 52)) * spacing (n / d) := hpow.symm
      _ ≤ nearest n d := Nat.mul_le_mul_right _ (hfloor _ (hpow ▸ h))
  · have hself : spacing (n / d) ≤ n / d :=
      (Nat.pow_le_pow_right (by decide) (Nat.sub_le _ _)).trans (Nat.log2_self_le hpos)
    have hone := hfloor 0 (by simpa using hself)
    calc 2 ^ e ≤ spacing (n / d) := Nat.pow_le_pow_right (by decide) he
      _ ≤ nearest n d := Nat.le_mul_of_pos_left _ hone

theorem nearest_mono {n d n' d' : Nat} (hd : 0 < d) (hd' : 0 < d') (h : n * d' ≤ n' * d) :
    nearest n d ≤ nearest n' d' := by
  have hq := div_le_div_of_mul_le hd hd' h
  have hlog : (n / d).log2 ≤ (n' / d').log2 := by
    by_cases hzero : n / d = 0
    · simp [hzero]
    · have hpos : n' / d' ≠ 0 := Nat.ne_of_gt ((Nat.pos_of_ne_zero hzero).trans_le hq)
      exact (Nat.le_log2 hpos).2 ((Nat.log2_self_le hzero).trans hq)
  rcases Nat.lt_or_eq_of_le hlog with hlt | heq
  · have hpos : n' / d' ≠ 0 := by
      intro hzero
      simp [hzero] at hlt
    have hbelow : n / d < 2 ^ (n' / d').log2 :=
      Nat.lt_log2_self.trans_le (Nat.pow_le_pow_right (by decide) hlt)
    exact (nearest_le_two_pow hbelow).trans (two_pow_le_nearest (Nat.log2_self_le hpos))
  · have hspacing : spacing (n / d) = spacing (n' / d') := by simp [spacing, heq]
    have hscaled : n * (d' * spacing (n / d)) ≤ n' * (d * spacing (n / d)) := by
      simpa only [← Nat.mul_assoc] using Nat.mul_le_mul_right (spacing (n / d)) h
    have hround := roundQuotient_mono (Nat.mul_pos hd (spacing_pos (n / d)))
      (Nat.mul_pos hd' (spacing_pos (n / d))) hscaled
    simpa only [nearest, ← hspacing] using Nat.mul_le_mul_right (spacing (n / d)) hround

theorem nearest_of_aligned {m d : Nat} (h : Aligned m) (hd : 0 < d) : nearest (m * d) d = m := by
  obtain ⟨k, hk⟩ := Nat.dvd_of_mod_eq_zero h
  have hquot : m * d = k * (d * spacing m) := by
    conv_lhs => rw [hk]
    ring
  rw [nearest, Nat.mul_div_cancel m hd, hquot,
    roundQuotient_mul k (Nat.mul_pos hd (spacing_pos m)), Nat.mul_comm, ← hk]

theorem nearest_zero {d : Nat} (hd : 0 < d) : nearest 0 d = 0 := by
  simpa using nearest_of_aligned onGrid_zero.aligned hd

theorem aligned_limit : Aligned limit := by
  simpa [limit] using aligned_mul_pow (r := 1) (e := magnitudeBits) (by decide)

theorem aligned_mul_unit {n : Nat} (h : n ≤ 2 ^ 53) : Aligned (n * unit) :=
  aligned_mul_pow h

theorem two_pow_mul_unit (k : Nat) : 2 ^ k * unit = 2 ^ (k + fractionBits) :=
  (Nat.pow_add 2 k fractionBits).symm

theorem two_pow_mul_unit_lt_limit {k : Nat} (h : k < 1024) : 2 ^ k * unit < limit := by
  have hbits : 1024 + fractionBits = magnitudeBits := rfl
  rw [two_pow_mul_unit, limit]
  exact Nat.pow_lt_pow_right (by decide) (by omega)

end CarrierTape.Binary64
