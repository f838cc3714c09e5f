import CarrierTape.Proofs.Json.Number

/-!
Where the short rule finds the nearest number. A significand below 10^15 and the powers of ten up
to 10^22 are numbers themselves, so their product or quotient is rounded once. Integers are rounded
once in any case, and the number of a short numeral is the nearest one whatever its class
(`number?_eq_nearest`).
-/

namespace CarrierTape

open Binary64 Decimal

-- Numbers of more than a thousand bits, which are never to be unfolded in search of a match.
attribute [local irreducible] limit unit

namespace Binary64

theorem NearestTo.neg {q : ℚ} {x : Binary64} (h : NearestTo false q x) : NearestTo true q (-x) := by
  cases h with
  | finite hm hnear => exact .finite hm hnear
  | infinite hlarge hnear => exact .infinite hlarge hnear

theorem nearestTo_ofNat (n : ℕ) : NearestTo false n (ofNat n) :=
  nearestTo_ofQuotient false (n * unit) one_pos (by simp)

theorem nearest_product_lt {significand k : ℕ} (hdigits : significand < 10 ^ 15) (hk : k ≤ 22) :
    nearest (significand * unit * (10 ^ k * unit)) unit < limit := by
  have hpower : 10 ^ k ≤ 10 ^ 22 := Nat.pow_le_pow_right (by decide) hk
  have hsmall : significand * 10 ^ k < 2 ^ 123 :=
    (Nat.mul_le_mul hdigits.le hpower).trans_lt (by norm_num)
  have hquotient : significand * unit * (10 ^ k * unit) / unit = significand * 10 ^ k * unit :=
    Nat.div_eq_of_eq_mul_left unit_pos (by ring)
  have hbelow : significand * 10 ^ k * unit < 2 ^ (123 + fractionBits) := by
    rw [← two_pow_mul_unit]
    exact Nat.mul_lt_mul_of_pos_right hsmall unit_pos
  calc nearest (significand * unit * (10 ^ k * unit)) unit
    _ ≤ 2 ^ (123 + fractionBits) := nearest_le_two_pow (hquotient ▸ hbelow)
    _ = 2 ^ 123 * unit := (two_pow_mul_unit 123).symm
    _ < limit := two_pow_mul_unit_lt_limit (by decide)

end Binary64

namespace Decimal.Numeral

/-! ### Fractions and multiples of a significand -/

theorem nearestTo_scaled?_neg {significand places : ℕ} (hdigits : significand < 10 ^ 15)
    (hpos : places ≠ 0) (hplaces : places ≤ 22) :
    ∃ x, scaled? significand (-places) = some x ∧
      NearestTo false (significand * 10 ^ (-(places : ℤ))) x := by
  have hgrid : OnGrid (significand * unit) := by
    simpa using onGrid_mul_unit (hdigits.le.trans (by norm_num)) (Nat.zero_le 22)
  refine ⟨_, scaled?_neg hpos hplaces hgrid,
    nearestTo_ofQuotient false (significand * unit) (by positivity) ?_⟩
  rw [zpow_neg, zpow_natCast]
  push_cast
  ring

theorem nearestTo_scaled?_nonneg {significand k : ℕ} (hdigits : significand < 10 ^ 15)
    (hk : k ≤ 22) :
    ∃ x, scaled? significand k = some x ∧ NearestTo false (significand * 10 ^ (k : ℤ)) x := by
  obtain ⟨hpower, hten⟩ := powerOfTen_eq hk
  have hproduct : ofNat significand * powerOfTen k =
      ofQuotient false (significand * unit * (10 ^ k * unit)) unit := by
    rw [hten, ofNat_eq (hdigits.le.trans (by norm_num))]
    rfl
  have hfinite : (ofNat significand * powerOfTen k).isInfinite = false := by
    rw [hproduct, ofQuotient, dif_pos (nearest_product_lt hdigits hk)]
    rfl
  refine ⟨ofNat significand * powerOfTen k, ?_, ?_⟩
  · change scaleUp? (ofNat significand) k = _
    rw [scaleUp?, if_neg (by omega)]
    simp [hfinite]
  · rw [hproduct]
    refine nearestTo_ofQuotient false _ unit_pos ?_
    have hunit := unit_cast_pos.ne'
    push_cast
    rw [zpow_natCast]
    field_simp

theorem nearestTo_scaled? {significand : ℕ} {e : ℤ} (hdigits : significand < 10 ^ 15)
    (hlow : -22 ≤ e) (hhigh : e ≤ 22) :
    ∃ x, scaled? significand e = some x ∧ NearestTo false (significand * 10 ^ e) x := by
  rcases lt_or_ge e 0 with hneg | hnonneg
  · obtain ⟨places, rfl⟩ := Int.exists_eq_neg_ofNat hneg.le
    exact nearestTo_scaled?_neg hdigits (by omega) (by omega)
  · obtain ⟨k, rfl⟩ := Int.eq_ofNat_of_zero_le hnonneg
    exact nearestTo_scaled?_nonneg hdigits (by omega)

/-! ### Every class of numbers -/

variable {n : Numeral}

theorem short?_eq_nearest (hdigits : n.significand < 10 ^ 15) (hlow : -22 ≤ n.scale)
    (hhigh : n.scale ≤ 22) : n.short? = some n.nearest := by
  obtain ⟨x, hx, hnear⟩ := nearestTo_scaled? hdigits hlow hhigh
  have hexact := nearestTo_ofDecimal n.negative n.significand n.scale
  rw [short?_eq (hdigits.trans (by norm_num)), hx, nearest]
  cases hsign : n.negative with
  | false =>
    rw [hsign] at hexact
    exact congrArg some (hnear.unique hexact)
  | true =>
    rw [hsign] at hexact
    exact congrArg some (hnear.neg.unique hexact)

theorem scale_of_isWhole (h : n.isWhole) : n.scale = 0 := by
  rw [isWhole, Bool.and_eq_true, List.isEmpty_iff, Option.isNone_iff_eq_none] at h
  rw [scale, h.1, h.2]
  rfl

theorem significand_of_isWhole (h : n.isWhole) :
    n.significand = Nat.ofDigitChars 10 n.whole 0 := by
  rw [isWhole, Bool.and_eq_true, List.isEmpty_iff] at h
  rw [significand, h.1, List.append_nil]

theorem integer?_eq_some (hsmall : n.significand < 2 ^ 64) {i : ℤ} (h : n.integer? = some i) :
    n.isWhole ∧ (n.negative = false ∧ i = n.significand ∨
      n.negative = true ∧ n.significand ≠ 0 ∧ i = -n.significand) := by
  by_cases hwhole : n.isWhole
  · have hsignificand := significand_of_isWhole hwhole
    rw [hsignificand] at hsmall ⊢
    unfold integer? at h
    simp only [takeWhole_eq hsmall, hwhole, Bool.not_true, bne_self_eq_false, Bool.or_self,
      Bool.false_eq_true, if_false] at h
    refine ⟨hwhole, ?_⟩
    cases hsign : n.negative with
    | false =>
      left
      simpa [hsign, eq_comm] using h
    | true =>
      right
      simp only [hsign, Bool.not_true, Bool.false_eq_true, if_false] at h
      split_ifs at h with hrange
      exact ⟨rfl, fun hzero => hrange (.inl hzero), (Option.some.inj h).symm⟩
  · simp [integer?, hwhole] at h

theorem toBinary64_integer? (hsmall : n.significand < 2 ^ 64) {i : ℤ} (h : n.integer? = some i) :
    (Json.Number.integer i).toBinary64 = n.nearest := by
  obtain ⟨hwhole, hsign⟩ := integer?_eq_some hsmall h
  have hscale := scale_of_isWhole hwhole
  have hexact := nearestTo_ofDecimal n.negative n.significand n.scale
  rw [nearest]
  rw [hscale, zpow_zero, mul_one] at hexact
  rw [hscale]
  rcases hsign with ⟨hsign, rfl⟩ | ⟨hsign, hzero, rfl⟩
  · rw [hsign] at hexact ⊢
    exact (nearestTo_ofNat n.significand).unique hexact
  · obtain ⟨m, hm⟩ := Nat.exists_eq_add_one_of_ne_zero hzero
    rw [hsign] at hexact ⊢
    rw [hm] at hexact ⊢
    exact (nearestTo_ofNat (m + 1)).neg.unique hexact

/-- The number of a numeral with at most 15 digits and a scale of at most 22 either way is the
nearest one, the negative zero included. -/
theorem number?_eq_nearest (hdigits : n.significand < 10 ^ 15) (hlow : -22 ≤ n.scale)
    (hhigh : n.scale ≤ 22) : n.number?.map Json.Number.toBinary64 = some n.nearest := by
  unfold number?
  cases hinteger : n.integer? with
  | some i => exact congrArg some (toBinary64_integer? (hdigits.trans (by norm_num)) hinteger)
  | none =>
    simp only [short?_eq_nearest hdigits hlow hhigh]
    rfl

end Decimal.Numeral

end CarrierTape
