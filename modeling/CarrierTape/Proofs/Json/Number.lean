import CarrierTape.Proofs.Binary64.Arithmetic
import CarrierTape.Proofs.Decimal.Canonical
import CarrierTape.Proofs.Decimal.Shortest
import CarrierTape.Proofs.Json.Grammar

/-!
Numbers of documents there and back. The short rule is exact where both the significand and
the power of ten are numbers themselves: then it rounds only once. That is so for what is
written for a number with few digits, also where a whole number gets a zero behind its
point, which makes its significand ten times as large (`number?_ofDecimal`).
-/

namespace CarrierTape

open Binary64 Decimal

-- Numbers of more than a thousand bits, which are never to be unfolded in search of a match.
attribute [local irreducible] limit unit

namespace Binary64

/-! ### Numbers with few digits -/

theorem onGrid_mul_unit {r a : ℕ} (hr : r ≤ 2 ^ 53) (ha : a ≤ 22) : OnGrid (r * 2 ^ a * unit) := by
  constructor
  · have hle : r * 2 ^ a ≤ 2 ^ 75 :=
      (Nat.mul_le_mul hr (Nat.pow_le_pow_right two_pos ha)).trans (by norm_num)
    exact (Nat.mul_le_mul_right unit hle).trans_lt (two_pow_mul_unit_lt_limit (by decide))
  · rw [unit, Nat.mul_assoc, ← Nat.pow_add]
    exact aligned_mul_pow hr

/-- The number nearest to a decimal of either sign with at most 15 digits and at most 22 places
behind the point. Both zeros are among these numbers. -/
def FewDigits (x : Binary64) : Prop :=
  ∃ (negative : Bool) (digits places : ℕ), digits < 10 ^ 15 ∧ places ≤ 22 ∧
    NearestTo negative (digits / 10 ^ places) x

theorem fewDigits_ofDecimal (negative : Bool) {digits places : ℕ} (hdigits : digits < 10 ^ 15)
    (hplaces : places ≤ 22) : (ofDecimal negative digits (-places)).FewDigits := by
  refine ⟨negative, digits, places, hdigits, hplaces, ?_⟩
  have hnear := nearestTo_ofDecimal negative digits (-places)
  rwa [zpow_neg, zpow_natCast, ← div_eq_mul_inv] at hnear

theorem fewDigits_ofScientific {digits places : ℕ} (hdigits : digits < 10 ^ 15)
    (hplaces : places ≤ 22) :
    (OfScientific.ofScientific digits true places : Binary64).FewDigits :=
  fewDigits_ofDecimal false hdigits hplaces

theorem fewDigits_zero (negative : Bool) : (zero negative).FewDigits :=
  fewDigits_ofDecimal negative (by decide : 0 < 10 ^ 15) (Nat.zero_le 22)

theorem FewDigits.exists_nearest {x : Binary64} (h : x.FewDigits) :
    ∃ (s : Bool) (m : ℕ) (hm : OnGrid m) (digits places : ℕ), x = .finite s m hm ∧
      digits < 10 ^ 15 ∧ places ≤ 22 ∧ nearest (digits * unit) (10 ^ places) = m := by
  obtain ⟨s, digits, places, hdigits, hplaces, hnear⟩ := h
  have hpow : 0 < 10 ^ places := by positivity
  have hbelow : nearest (digits * unit) (10 ^ places) < limit := by
    have hle : digits ≤ 2 ^ 53 := hdigits.le.trans (by norm_num)
    refine (nearest_le_digits hle places).trans_lt ?_
    simpa using (onGrid_mul_unit hle (Nat.zero_le 22)).below
  refine ⟨s, _, onGrid_nearest hbelow, digits, places, ?_, hdigits, hplaces, rfl⟩
  have hq : (digits / 10 ^ places : ℚ) * unit = (digits * unit : ℕ) / (10 ^ places : ℕ) := by
    push_cast
    ring
  have hcomputed := nearestTo_ofQuotient s (digits * unit) hpow hq
  rw [ofQuotient, dif_pos hbelow] at hcomputed
  exact hnear.unique hcomputed

end Binary64

namespace Decimal.Numeral

/-! ### The short rule -/

theorem le_ofDigitChars (taken : ℕ) (digits : List Char) :
    taken ≤ Nat.ofDigitChars 10 digits taken := by
  rw [Nat.ofDigitChars_eq_ofDigitChars_zero]
  exact Nat.le_add_right_of_le (Nat.le_mul_of_pos_left _ (by positivity))

theorem takeWhole_eq {digits : List Char} {taken : ℕ}
    (h : Nat.ofDigitChars 10 digits taken < 2 ^ 64) :
    takeWhole taken 0 digits = (Nat.ofDigitChars 10 digits taken, 0) := by
  induction digits generalizing taken with
  | nil => rfl
  | cons c digits ih =>
    rw [Nat.ofDigitChars_cons] at h ⊢
    rw [takeWhole, if_pos ⟨rfl, (le_ofDigitChars _ _).trans_lt h⟩]
    exact ih h

theorem takeFraction_eq {digits : List Char} {taken count : ℕ}
    (h : Nat.ofDigitChars 10 digits taken < 2 ^ 64) :
    takeFraction taken count digits =
      (Nat.ofDigitChars 10 digits taken, count + digits.length) := by
  induction digits generalizing taken count with
  | nil => rfl
  | cons c digits ih =>
    rw [Nat.ofDigitChars_cons] at h ⊢
    have hfits : 10 * taken + digitValue c < 2 ^ 64 := (le_ofDigitChars _ _).trans_lt h
    rw [takeFraction, if_pos hfits, List.length_cons, Nat.add_comm digits.length, ← Nat.add_assoc]
    exact ih h

theorem short?_eq {n : Numeral} (h : n.significand < 2 ^ 64) :
    n.short? = if n.negative then (scaled? n.significand n.scale).map Binary64.neg
      else scaled? n.significand n.scale := by
  rw [significand, Nat.ofDigitChars_append] at h ⊢
  have hwhole := takeWhole_eq ((le_ofDigitChars _ n.fraction).trans_lt h)
  have hscale : ((0 : ℕ) : ℤ) - ((0 + n.fraction.length : ℕ) : ℤ) + n.exponent.getD 0 =
      n.scale := by
    rw [scale]
    omega
  simp only [short?, hwhole, takeFraction_eq h, hscale]

theorem powerOfTen_eq {k : ℕ} (hk : k ≤ 22) :
    ∃ h, powerOfTen k = .finite false (10 ^ k * unit) h := by
  have hfive : 5 ^ k ≤ 2 ^ 53 := (Nat.pow_le_pow_right (by decide) hk).trans (by norm_num)
  have hgrid : OnGrid (10 ^ k * unit) := by
    have hten : 10 ^ k = 5 ^ k * 2 ^ k := by rw [← Nat.mul_pow]
    rw [hten]
    exact onGrid_mul_unit hfive hk
  refine ⟨hgrid, ?_⟩
  have hsmall : ¬ 308 < k := by omega
  change (if 1 = 0 then zero false else if 308 < k then .infinite false
    else ofQuotient false (1 * 10 ^ k * unit) 1) = _
  rw [if_neg one_ne_zero, if_neg hsmall, Nat.one_mul]
  exact ofQuotient_one hgrid

theorem scaled?_neg {significand places : ℕ} (hpos : places ≠ 0) (hplaces : places ≤ 22)
    (h : OnGrid (significand * unit)) :
    scaled? significand (-places) = some (ofQuotient false (significand * unit) (10 ^ places)) := by
  obtain ⟨k, rfl⟩ := Nat.exists_eq_add_one_of_ne_zero hpos
  obtain ⟨hgrid, hpower⟩ := powerOfTen_eq hplaces
  have hten : 0 < 10 ^ (k + 1) := by positivity
  change some (scaleDown (.ofNat significand) (k + 1)) = _
  rw [scaleDown, if_pos (by omega), hpower, Binary64.ofNat, ofQuotient_one h]
  have hdiv : div (.finite false _ h) (.finite false _ hgrid) =
      ofQuotient false (significand * unit * unit) (10 ^ (k + 1) * unit) :=
    if_neg (Nat.mul_pos hten unit_pos).ne'
  rw [div_eq, hdiv]
  refine congrArg some (ofQuotient_congr (nearest_congr (Nat.mul_pos hten unit_pos) hten ?_))
  ring

/-! ### What is written for a decimal -/

theorem ofDecimal_neg (negative : Bool) {d : Decimal} (hexponent : d.exponent < 0)
    (hleading : d.leadingExponent ≤ 15) :
    (ofDecimal negative d).significand = d.digits ∧
      (ofDecimal negative d).scale = d.exponent := by
  have hpos : 0 < (Nat.toDigits 10 d.digits).length := Nat.length_toDigits_pos
  have hvalue : Nat.ofDigitChars 10 (Nat.toDigits 10 d.digits) 0 = d.digits :=
    Nat.ofDigitChars_ten_toDigits
  have hlead : d.leadingExponent = d.exponent + (Nat.toDigits 10 d.digits).length - 1 := rfl
  unfold ofDecimal
  simp only []
  split_ifs with hfar hsmall hinside
  · constructor
    · rw [significand, List.take_append_drop, hvalue]
    · simp only [scale, Option.getD_some, List.length_drop]
      omega
  · constructor
    · simp [significand, Nat.ofDigitChars_append, Nat.ofDigitChars_cons, hvalue]
    · simp only [scale, Option.getD_none, List.length_append, List.length_replicate]
      omega
  · constructor
    · rw [significand, List.take_append_drop, hvalue]
    · simp only [scale, Option.getD_none, List.length_drop]
      omega
  · omega

theorem ofDecimal_nonneg (negative : Bool) {d : Decimal} (hexponent : 0 ≤ d.exponent)
    (hleading : d.leadingExponent ≤ 15) :
    (ofDecimal negative d).significand = d.digits * 10 ^ d.exponent.toNat * 10 ∧
      (ofDecimal negative d).scale = -1 := by
  have hpos : 0 < (Nat.toDigits 10 d.digits).length := Nat.length_toDigits_pos
  have hvalue : Nat.ofDigitChars 10 (Nat.toDigits 10 d.digits) 0 = d.digits :=
    Nat.ofDigitChars_ten_toDigits
  have hlead : d.leadingExponent = d.exponent + (Nat.toDigits 10 d.digits).length - 1 := rfl
  have hzeros : (d.leadingExponent + 1 - (Nat.toDigits 10 d.digits).length).toNat =
      d.exponent.toNat := by omega
  unfold ofDecimal
  simp only []
  split_ifs with hfar hsmall hinside
  · omega
  · omega
  · omega
  · constructor
    · simp [significand, Nat.ofDigitChars_append, Nat.ofDigitChars_cons, hvalue, hzeros]
      ring
    · simp [scale]

theorem integer?_ofDecimal (negative : Bool) (d : Decimal) :
    (ofDecimal negative d).integer? = none := by
  have hpos : Nat.toDigits 10 d.digits ≠ [] := Nat.toDigits_ne_nil
  have hwhole : (ofDecimal negative d).isWhole = false := by
    unfold ofDecimal
    simp only []
    split_ifs with hfar hsmall hinside
    · simp [isWhole]
    · simp [isWhole, hpos]
    · have hdrop : (d.leadingExponent + 1).toNat < (Nat.toDigits 10 d.digits).length := by omega
      simpa [isWhole] using hdrop
    · simp [isWhole]
  simp [integer?, hwhole]

@[simp] theorem negative_ofDecimal (negative : Bool) (d : Decimal) :
    (ofDecimal negative d).negative = negative := by
  unfold ofDecimal
  simp only []
  split_ifs <;> rfl

/-! ### Numbers that come back -/

/-- A decimal is read back if its significand, as it is written, is a number itself. -/
theorem scaled?_ofDecimal (negative : Bool) {m : ℕ} (hm : OnGrid m) {d : Decimal}
    (hreads : ReadsBack m d) (hleading : d.leadingExponent ≤ 15) (hplaces : -22 ≤ d.exponent)
    (hexact : OnGrid ((ofDecimal negative d).significand * unit)) :
    scaled? (ofDecimal negative d).significand (ofDecimal negative d).scale =
      some (.finite false m hm) := by
  rcases lt_or_ge d.exponent 0 with hneg | hnonneg
  · obtain ⟨hsignificand, hscale⟩ := ofDecimal_neg negative hneg hleading
    obtain ⟨places, hexponent⟩ := Int.exists_eq_neg_ofNat hneg.le
    rw [hsignificand] at hexact ⊢
    rw [hscale, hexponent, scaled?_neg (by omega) (by omega) hexact]
    exact congrArg some (ofQuotient_of_nearest hm (readsBack_neg.1 (by rwa [← hexponent])))
  · obtain ⟨hsignificand, hscale⟩ := ofDecimal_nonneg negative hnonneg hleading
    rw [hsignificand] at hexact ⊢
    have hone : (-1 : ℤ) = -((1 : ℕ) : ℤ) := rfl
    rw [hscale, hone, scaled?_neg one_ne_zero (by decide) hexact]
    refine congrArg some (ofQuotient_of_nearest hm ?_)
    have hzero : (-d.exponent).toNat = 0 := by omega
    rw [← hreads, hzero]
    exact nearest_congr (by norm_num) (by norm_num) (by ring)

theorem number?_of_readsBack {s : Bool} {m : ℕ} (hm : OnGrid m) {d : Decimal}
    (hreads : ReadsBack m d) (hleading : d.leadingExponent ≤ 15) (hplaces : -22 ≤ d.exponent)
    (hsmall : (ofDecimal s d).significand < 2 ^ 64)
    (hexact : OnGrid ((ofDecimal s d).significand * unit)) :
    (ofDecimal s d).number? = some (.float (.finite s m hm)) := by
  rw [number?, integer?_ofDecimal]
  simp only [short?_eq hsmall, negative_ofDecimal,
    scaled?_ofDecimal s hm hreads hleading hplaces hexact]
  cases s <;> rfl

theorem number?_of_small {s : Bool} {m : ℕ} (hm : OnGrid m) {d : Decimal}
    (hreads : ReadsBack m d) (hd : d.Small) :
    (ofDecimal s d).number? = some (.float (.finite s m hm)) := by
  rcases lt_or_ge d.exponent 0 with hneg | hnonneg
  · have hdigits := hd.behind hneg
    have hexact : OnGrid (d.digits * unit) := by
      simpa using onGrid_mul_unit (hdigits.le.trans (by norm_num)) (Nat.zero_le 22)
    rw [← (ofDecimal_neg s hneg hd.leading).1] at hdigits hexact
    exact number?_of_readsBack hm hreads hd.leading hd.places
      (hdigits.trans (by norm_num)) hexact
  · have hwhole := hd.whole hnonneg
    -- the zero behind the point costs a bit of the significand and a power of two
    have hexact : OnGrid (d.digits * 10 ^ d.exponent.toNat * 10 * unit) := by
      have htwo : d.digits * 10 ^ d.exponent.toNat * 10 =
          d.digits * 10 ^ d.exponent.toNat * 5 * 2 ^ 1 := by ring
      rw [htwo]
      exact onGrid_mul_unit (by omega) (by decide)
    have hsmall : d.digits * 10 ^ d.exponent.toNat * 10 < 2 ^ 64 := by omega
    rw [← (ofDecimal_nonneg s hnonneg hd.leading).1] at hsmall hexact
    exact number?_of_readsBack hm hreads hd.leading hd.places hsmall hexact

theorem number?_ofDecimal {s : Bool} {m : ℕ} {hm : OnGrid m} (h : FewDigits (.finite s m hm)) :
    (ofDecimal s (shortest .even m)).number? = some (.float (.finite s m hm)) := by
  obtain ⟨s', m', hm', digits, places, heq, hdigits, hplaces, hnear⟩ := h.exists_nearest
  obtain ⟨rfl, rfl⟩ := finite.inj heq
  obtain ⟨hreads, hsmall⟩ := shortest_small .even hdigits hplaces hnear
  exact number?_of_small hm hreads hsmall

end Decimal.Numeral

end CarrierTape
