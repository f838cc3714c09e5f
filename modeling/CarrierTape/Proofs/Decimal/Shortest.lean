import CarrierTape.Decimal.Style
import CarrierTape.Proofs.Binary64.Nearest

/-!
What the search for the shortest decimal finds. If a number is nearest to a decimal with so
many places, the search stops on the grid of that many places or on a coarser one, since one
of the two neighbours of the number lies between it and that decimal (`shortest_of_nearest`).
What it finds cannot be much larger than the decimal, or it would not have the same nearest
number.
-/

namespace CarrierTape.Decimal

open Binary64

-- Numbers of more than a thousand bits, which are never to be unfolded in search of a match.
attribute [local irreducible] limit unit

theorem readsBack_neg {m digits places : ℕ} :
    ReadsBack m ⟨digits, -places⟩ ↔ nearest (digits * unit) (10 ^ places) = m := by
  simp [ReadsBack]

theorem ReadsBack.digits_ne_zero {m : ℕ} (hm : m ≠ 0) {d : Decimal} (h : ReadsBack m d) :
    d.digits ≠ 0 := by
  intro hzero
  rw [ReadsBack, hzero, Nat.zero_mul, Nat.zero_mul, nearest_zero (by positivity)] at h
  exact hm h.symm

/-- The neighbour between a number and a decimal that is nearest to it reads back. -/
theorem exists_neighbour_readsBack (tie : Tie) {m digits places : ℕ} (haligned : Aligned m)
    (h : nearest (digits * unit) (10 ^ places) = m) :
    ∃ d ∈ neighbours tie m (-places), ReadsBack m d := by
  have hpow : 0 < 10 ^ places := by positivity
  set lower := m * 10 ^ places / unit with hlower
  have hself : nearest (m * 10 ^ places) (10 ^ places) = m := nearest_of_aligned haligned hpow
  have hmem : (⟨lower, -places⟩ : Decimal) ∈ neighbours tie m (-places) ∧
      (⟨lower + 1, -places⟩ : Decimal) ∈ neighbours tie m (-places) := by
    simp only [neighbours, neg_neg, Int.toNat_natCast, Int.toNat_neg_natCast, pow_zero, mul_one]
    split_ifs <;> simp [hlower]
  rcases Nat.lt_or_ge lower digits with hlt | hge
  · refine ⟨_, hmem.2, readsBack_neg.2 (le_antisymm ?_ ?_)⟩
    · exact (nearest_mono hpow hpow (Nat.mul_le_mul_right _ (Nat.mul_le_mul_right _ hlt))).trans
        h.le
    · refine hself.ge.trans (nearest_mono hpow hpow (Nat.mul_le_mul_right _ ?_))
      exact (Nat.lt_mul_of_div_lt (Nat.lt_succ_self _) unit_pos).le
  · refine ⟨_, hmem.1, readsBack_neg.2 (le_antisymm ?_ ?_)⟩
    · exact (nearest_mono hpow hpow (Nat.mul_le_mul_right _ (Nat.div_mul_le_self _ _))).trans
        hself.le
    · exact h.ge.trans (nearest_mono hpow hpow
        (Nat.mul_le_mul_right _ (Nat.mul_le_mul_right _ hge)))

theorem exponent_of_mem_neighbours {tie : Tie} {m : ℕ} {exponent : ℤ} {d : Decimal}
    (h : d ∈ neighbours tie m exponent) : d.exponent = exponent := by
  simp only [neighbours] at h
  split_ifs at h <;> simp only [List.mem_cons, List.not_mem_nil, or_false] at h <;>
    rcases h with rfl | rfl <;> rfl

theorem coarsest_succ (tie : Tie) (m finer : ℕ) :
    coarsest tie m (finer + 1) =
      match (neighbours tie m ((finer + 1 : ℕ) - fractionBits)).find? (ReadsBack m ·) with
      | some d => d
      | none => coarsest tie m finer := rfl

theorem coarsest_of_nearest (tie : Tie) {m digits places : ℕ} (haligned : Aligned m)
    (h : nearest (digits * unit) (10 ^ places) = m) (hplaces : places < fractionBits) {finer : ℕ}
    (hfiner : fractionBits - places ≤ finer) :
    ReadsBack m (coarsest tie m finer) ∧ -places ≤ (coarsest tie m finer).exponent := by
  induction finer with
  | zero => omega
  | succ finer ih =>
    rw [coarsest_succ]
    split
    case h_1 d hfind =>
      have hexponent := exponent_of_mem_neighbours (List.mem_of_find?_eq_some hfind)
      exact ⟨by simpa using List.find?_some hfind, by omega⟩
    case h_2 hfind =>
      rcases Nat.lt_or_eq_of_le hfiner with hlt | heq
      · exact ih (by omega)
      · obtain ⟨d, hd, hreads⟩ := exists_neighbour_readsBack tie haligned h
        have hexponent : ((finer + 1 : ℕ) : ℤ) - fractionBits = -places := by omega
        rw [hexponent, List.find?_eq_none] at hfind
        exact absurd (decide_eq_true hreads) (hfind d hd)

theorem shortest_of_nearest (tie : Tie) {m digits places : ℕ} (hm : m ≠ 0)
    (h : nearest (digits * unit) (10 ^ places) = m) (hplaces : places < fractionBits) :
    ReadsBack m (shortest tie m) ∧ -places ≤ (shortest tie m).exponent := by
  rw [shortest, if_neg hm]
  exact coarsest_of_nearest tie (h ▸ aligned_nearest _ _) h hplaces (by omega)

/-! ### How large it can be -/

theorem lt_four_mul_of_nearest_eq {digits digits' places : ℕ} (hdigits : digits ≠ 0)
    (hplaces : 10 ^ places ≤ unit)
    (h : nearest (digits' * unit) (10 ^ places) = nearest (digits * unit) (10 ^ places)) :
    digits' < 4 * digits := by
  have hpow : 0 < 10 ^ places := by positivity
  set floor := digits * unit / 10 ^ places with hfloor
  have hpos : floor ≠ 0 := by
    refine Nat.ne_of_gt ((Nat.div_pos_iff).2 ⟨hpow, hplaces.trans ?_⟩)
    exact Nat.le_mul_of_pos_left _ (Nat.pos_of_ne_zero hdigits)
  have hle : nearest (digits * unit) (10 ^ places) ≤ 2 ^ (floor.log2 + 1) :=
    nearest_le_two_pow Nat.lt_log2_self
  by_contra hge
  have hfour : 4 * floor ≤ digits' * unit / 10 ^ places := by
    rw [Nat.le_div_iff_mul_le hpow]
    calc 4 * floor * 10 ^ places = 4 * (floor * 10 ^ places) := Nat.mul_assoc ..
      _ ≤ 4 * (digits * unit) := Nat.mul_le_mul_left 4 (Nat.div_mul_le_self _ _)
      _ = 4 * digits * unit := (Nat.mul_assoc ..).symm
      _ ≤ digits' * unit := Nat.mul_le_mul_right _ (Nat.not_lt.1 hge)
  have hlow : 2 ^ (floor.log2 + 2) ≤ digits' * unit / 10 ^ places := by
    refine le_trans ?_ hfour
    rw [Nat.pow_add, Nat.mul_comm]
    exact Nat.mul_le_mul_left 4 (Nat.log2_self_le hpos)
  have hge' := two_pow_le_nearest hlow
  rw [h] at hge'
  have hlt : 2 ^ (floor.log2 + 1) < 2 ^ (floor.log2 + 2) :=
    Nat.pow_lt_pow_right one_lt_two (by omega)
  omega

theorem nearest_whole {n : ℕ} (hn : n ≤ 2 ^ 53) : nearest (n * unit) 1 = n * unit := by
  simpa using nearest_of_aligned (aligned_mul_unit hn) one_pos

theorem nearest_le_digits {digits : ℕ} (hdigits : digits ≤ 2 ^ 53) (places : ℕ) :
    nearest (digits * unit) (10 ^ places) ≤ digits * unit := by
  have hpow : 0 < 10 ^ places := by positivity
  rw [← nearest_whole hdigits]
  refine nearest_mono hpow one_pos ?_
  rw [Nat.mul_one, nearest_whole hdigits]
  exact Nat.le_mul_of_pos_right _ hpow

/-- A whole number that has the same nearest number as a smaller decimal is not larger than
the next whole number. -/
theorem lt_of_nearest_eq {whole digits places : ℕ} {bound : ℕ} (hbound : bound < 2 ^ 53)
    (hdigits : digits < bound)
    (h : nearest (whole * unit) 1 = nearest (digits * unit) (10 ^ places)) : whole < bound := by
  by_contra hge
  have hlow : bound * unit ≤ nearest (whole * unit) 1 := by
    rw [← nearest_whole hbound.le]
    exact nearest_mono one_pos one_pos
      (Nat.mul_le_mul_right _ (Nat.mul_le_mul_right _ (Nat.not_lt.1 hge)))
  have hhigh := nearest_le_digits (hdigits.le.trans hbound.le) places
  have hlt : digits * unit < bound * unit := Nat.mul_lt_mul_of_pos_right hdigits unit_pos
  omega

theorem leadingExponent_lt {d : Decimal} (bound : ℕ) (hd : d.digits ≠ 0)
    (h : d.digits * 10 ^ d.exponent.toNat < 10 ^ (bound + (-d.exponent).toNat)) :
    d.leadingExponent < bound := by
  have hlength {k : ℕ} (hpos : 0 < k) (hk : d.digits < 10 ^ k) :
      (Nat.toDigits 10 d.digits).length ≤ k :=
    (Nat.length_toDigits_le_iff (by decide) hpos).2 hk
  have hlead : d.leadingExponent = d.exponent + (Nat.toDigits 10 d.digits).length - 1 := rfl
  rcases lt_or_ge d.exponent 0 with hneg | hnonneg
  · have hzero : d.exponent.toNat = 0 := by omega
    rw [hzero, pow_zero, mul_one] at h
    have hle := hlength (by omega) h
    omega
  · have hzero : (-d.exponent).toNat = 0 := by omega
    rw [hzero, add_zero] at h
    have hexponent : d.exponent.toNat < bound := by
      refine (Nat.pow_lt_pow_iff_right (by decide : 1 < 10)).1 (lt_of_le_of_lt ?_ h)
      exact Nat.le_mul_of_pos_left _ (Nat.pos_of_ne_zero hd)
    rw [← Nat.sub_add_cancel hexponent.le, Nat.pow_add] at h
    have hle := hlength (by omega) (Nat.lt_of_mul_lt_mul_right h)
    omega

/-- A decimal on a coarser grid may have one digit more, but only behind the point. -/
theorem digits_lt_of_readsBack {m digits places : ℕ} (hm : m ≠ 0) (hdigits : digits < 10 ^ 15)
    (hplaces : places ≤ 22) (h : nearest (digits * unit) (10 ^ places) = m) {d : Decimal}
    (hreads : ReadsBack m d) (hexponent : -places ≤ d.exponent) :
    (d.exponent < 0 → d.digits < 4 * 10 ^ 15) ∧
      (0 ≤ d.exponent → d.digits * 10 ^ d.exponent.toNat < 10 ^ 15) := by
  have hpow : 0 < 10 ^ places := by positivity
  constructor
  · intro hneg
    have hne : digits ≠ 0 := by
      rintro rfl
      rw [Nat.zero_mul, nearest_zero hpow] at h
      exact hm h.symm
    obtain ⟨j, hj⟩ := Int.exists_eq_neg_ofNat hneg.le
    obtain ⟨more, rfl⟩ : ∃ more, places = j + more := Nat.exists_eq_add_of_le (by omega)
    obtain ⟨rest, hrest⟩ : ∃ rest, fractionBits = 74 + rest := ⟨1000, rfl⟩
    have hsmall : 10 ^ (j + more) ≤ unit := by
      rw [unit, hrest, Nat.pow_add 2]
      calc 10 ^ (j + more) ≤ 10 ^ 22 := Nat.pow_le_pow_right (by decide) hplaces
        _ ≤ 2 ^ 74 := by norm_num
        _ ≤ 2 ^ 74 * 2 ^ rest := Nat.le_mul_of_pos_right _ (Nat.two_pow_pos rest)
    have hreads' : nearest (d.digits * unit) (10 ^ j) = m := readsBack_neg.1 (by rwa [← hj])
    have hsame : nearest (d.digits * 10 ^ more * unit) (10 ^ (j + more)) =
        nearest (digits * unit) (10 ^ (j + more)) := by
      rw [h, ← hreads']
      refine nearest_congr hpow (by positivity) ?_
      rw [Nat.pow_add]
      ring
    have hlt := lt_four_mul_of_nearest_eq hne hsmall hsame
    have hle : d.digits ≤ d.digits * 10 ^ more := Nat.le_mul_of_pos_right _ (by positivity)
    omega
  · intro hnonneg
    have hzero : (-d.exponent).toNat = 0 := by omega
    rw [ReadsBack, hzero, pow_zero] at hreads
    exact lt_of_nearest_eq (by norm_num) hdigits (hreads.trans h.symm)

structure Small (d : Decimal) : Prop where
  leading : d.leadingExponent ≤ 15
  places : -22 ≤ d.exponent
  behind : d.exponent < 0 → d.digits < 4 * 10 ^ 15
  whole : 0 ≤ d.exponent → d.digits * 10 ^ d.exponent.toNat < 10 ^ 15

theorem Small.of_digits {d : Decimal} (hne : d.digits ≠ 0) (places : -22 ≤ d.exponent)
    (behind : d.exponent < 0 → d.digits < 4 * 10 ^ 15)
    (whole : 0 ≤ d.exponent → d.digits * 10 ^ d.exponent.toNat < 10 ^ 15) : d.Small := by
  refine ⟨(leadingExponent_lt 15 hne ?_).le, places, behind, whole⟩
  rcases lt_or_ge d.exponent 0 with hneg | hnonneg
  · have hzero : d.exponent.toNat = 0 := by omega
    rw [hzero, pow_zero, mul_one]
    calc d.digits < 10 ^ 16 := (behind hneg).trans (by norm_num)
      _ ≤ 10 ^ (15 + (-d.exponent).toNat) := Nat.pow_le_pow_right (by decide) (by omega)
  · have hzero : (-d.exponent).toNat = 0 := by omega
    rw [hzero]
    exact whole hnonneg

theorem shortest_small (tie : Tie) {m digits places : ℕ} (hdigits : digits < 10 ^ 15)
    (hplaces : places ≤ 22) (h : nearest (digits * unit) (10 ^ places) = m) :
    ReadsBack m (shortest tie m) ∧ (shortest tie m).Small := by
  by_cases hm : m = 0
  · subst hm
    rw [shortest, if_pos rfl]
    refine ⟨?_, ⟨by decide, by decide, by decide, by decide⟩⟩
    simpa [ReadsBack] using nearest_zero one_pos
  · obtain ⟨hreads, hexponent⟩ := shortest_of_nearest tie hm h (by rw [fractionBits]; omega)
    obtain ⟨hbehind, hwhole⟩ := digits_lt_of_readsBack hm hdigits hplaces h hreads hexponent
    exact ⟨hreads, .of_digits (hreads.digits_ne_zero hm) (by omega) hbehind hwhole⟩

end CarrierTape.Decimal
