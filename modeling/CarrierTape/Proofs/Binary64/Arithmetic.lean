import CarrierTape.Proofs.Binary64.Order

/-!
Sums, products and quotients of finite numbers as `rounded` exact results, and
what follows from `rounded_mono`: adding a finite number or multiplying by a
number that is not negative keeps the order, and rounding never carries a sum past
a number that the exact sum does not pass.
-/

namespace CarrierTape.Binary64

-- A number of 2099 bits, which is never to be unfolded in search of a match.
attribute [local irreducible] limit

theorem ofQuotient_ne_nan (s : Bool) (n d : Nat) : ofQuotient s n d ≠ .nan := by
  unfold ofQuotient
  split <;> simp

theorem units_ofQuotient (s : Bool) (n : Nat) {d : Nat} (hd : 0 < d) :
    (ofQuotient s n d).units = rounded (signed s n) d := by
  have hunits : (ofQuotient s n d).units = signed s (min (nearest n d) limit) := by
    unfold ofQuotient
    split
    · rw [units_finite, Nat.min_eq_left (by omega)]
    · rw [units_infinite, Nat.min_eq_right (by omega)]
  cases s with
  | false => rw [hunits, signed_false, signed_false, rounded_natCast]
  | true => rw [hunits, signed_true, signed_true, rounded_neg _ hd, rounded_natCast]

theorem units_ofUnits (k : Int) : (ofUnits k).units = rounded k 1 := by
  rw [ofUnits, units_ofQuotient _ _ Nat.one_pos]
  congr 1
  rcases Int.lt_or_le k 0 with hk | hk
  · simp only [hk, decide_true, signed_true]
    omega
  · have hneg : ¬ k < 0 := by omega
    simp only [hneg, decide_false, signed_false]
    omega

theorem add_eq (a b : Binary64) : a + b = add a b := rfl

theorem mul_eq (a b : Binary64) : a * b = mul a b := rfl

theorem div_eq (a b : Binary64) : a / b = div a b := rfl

protected theorem add_comm (a b : Binary64) : a + b = b + a := by
  have hsum (s t : Bool) (m n : Nat) : signed s m + signed t n = signed t n + signed s m :=
    Int.add_comm _ _
  rw [add_eq, add_eq]
  cases a <;> cases b <;> simp only [add]
  · split <;> split <;> simp_all
  · rw [hsum, Bool.and_comm]

theorem units_add {a b : Binary64} (ha : a.isFinite) (hb : b.isFinite) :
    (a + b).units = rounded (a.units + b.units) 1 := by
  obtain ⟨s, m, hm, rfl⟩ := exists_eq_finite ha
  obtain ⟨t, n, hn, rfl⟩ := exists_eq_finite hb
  simp only [add_eq, add, units_finite]
  split
  case isTrue hzero =>
    rw [units_zero, hzero]
    simpa using (rounded_units (zero false) Nat.one_pos).symm
  case isFalse => exact units_ofUnits _

theorem signed_mul (s t : Bool) (m n : Nat) :
    signed (s ^^ t) (m * n) = signed s m * signed t n := by
  cases s <;> cases t <;> simp

theorem units_mul {a b : Binary64} (ha : a.isFinite) (hb : b.isFinite) :
    (a * b).units = rounded (a.units * b.units) unit := by
  obtain ⟨s, m, hm, rfl⟩ := exists_eq_finite ha
  obtain ⟨t, n, hn, rfl⟩ := exists_eq_finite hb
  rw [mul_eq, mul, units_ofQuotient _ _ unit_pos, units_finite, units_finite, signed_mul]

theorem units_div {a b : Binary64} (ha : a.isFinite) (hb : b.isFinite) (hpos : 0 < b.units) :
    (a / b).units = rounded (a.units * unit) b.units.natAbs := by
  obtain ⟨s, m, hm, rfl⟩ := exists_eq_finite ha
  obtain ⟨t, n, hn, rfl⟩ := exists_eq_finite hb
  have ht : t = false := by
    cases t with
    | false => rfl
    | true => simp at hpos; omega
  subst ht
  have hn : 0 < n := by simpa using hpos
  rw [div_eq, div, if_neg hn.ne', units_ofQuotient _ _ hn, units_finite, units_finite,
    natAbs_signed, signed_mul, signed_false]

@[simp] theorem units_neg (a : Binary64) : (-a).units = -a.units := by
  change (neg a).units = _
  cases a with
  | nan => rfl
  | infinite s => cases s <;> simp [neg]
  | finite s m h => cases s <;> simp [neg]

@[simp] theorem neg_eq_nan_iff {a : Binary64} : -a = .nan ↔ a = .nan := by
  change neg a = .nan ↔ _
  cases a <;> simp [neg]

@[simp] theorem isFinite_neg (a : Binary64) : (-a).isFinite = a.isFinite := by
  change (neg a).isFinite = _
  cases a <;> rfl

theorem isFinite_of_isFinite_add {a b : Binary64} (h : (a + b).isFinite) :
    a.isFinite ∧ b.isFinite := by
  rw [add_eq] at h
  cases a <;> cases b <;> simp [add, apply_ite isFinite] at h ⊢

theorem add_ne_nan {a b : Binary64} (ha : a.isFinite) (hb : b ≠ .nan) : a + b ≠ .nan := by
  obtain ⟨s, m, hm, rfl⟩ := exists_eq_finite ha
  rw [add_eq]
  cases b with
  | nan => exact absurd rfl hb
  | infinite t => simp [add]
  | finite t n hn =>
    simp only [add]
    split
    · simp [zero]
    · exact ofQuotient_ne_nan _ _ _

theorem mul_ne_nan {a b : Binary64} (ha : a.isFinite) (hb : b.isFinite) : a * b ≠ .nan := by
  obtain ⟨s, m, hm, rfl⟩ := exists_eq_finite ha
  obtain ⟨t, n, hn, rfl⟩ := exists_eq_finite hb
  exact ofQuotient_ne_nan _ _ _

theorem div_ne_nan {a b : Binary64} (ha : a.isFinite) (hb : b.isFinite) (hpos : 0 < b.units) :
    a / b ≠ .nan := by
  obtain ⟨s, m, hm, rfl⟩ := exists_eq_finite ha
  obtain ⟨t, n, hn, rfl⟩ := exists_eq_finite hb
  have hn : n ≠ 0 := by
    rintro rfl
    simp at hpos
  rw [div_eq]
  simp only [div, hn, if_false]
  exact ofQuotient_ne_nan _ _ _

theorem add_infinite {c : Binary64} (hc : c.isFinite) (s : Bool) :
    c + infinite s = infinite s := by
  obtain ⟨t, m, h, rfl⟩ := exists_eq_finite hc
  rfl

protected theorem add_le_add_left {a b c : Binary64} (hc : c.isFinite) (h : a ≤ b) :
    c + a ≤ c + b := by
  obtain ⟨hna, hnb, hunits⟩ := le_iff.1 h
  have hsum := add_ne_nan hc hna
  have hsum' := add_ne_nan hc hnb
  -- an infinite term is the sum itself
  by_cases ha : a = infinite true
  · rw [ha, add_infinite hc]
    exact infinite_true_le hsum'
  by_cases hb : b = infinite false
  · rw [hb, add_infinite hc]
    exact le_infinite_false hsum
  have hlow := neg_limit_lt_units ha
  have hhigh := units_lt_limit hb
  have hfa : a.isFinite := isFinite_iff.2 ⟨hna, by omega, by omega⟩
  have hfb : b.isFinite := isFinite_iff.2 ⟨hnb, by omega, by omega⟩
  refine le_iff.2 ⟨hsum, hsum', ?_⟩
  rw [units_add hc hfa, units_add hc hfb]
  exact rounded_mono Nat.one_pos Nat.one_pos (by omega)

protected theorem add_le_add_right {a b c : Binary64} (hc : c.isFinite) (h : a ≤ b) :
    a + c ≤ b + c := by
  rw [Binary64.add_comm a, Binary64.add_comm b]
  exact Binary64.add_le_add_left hc h

theorem units_add_zero {x : Binary64} (hx : x.isFinite) {z : Binary64} (hz : z.isFinite)
    (h : z.units = 0) : (x + z).units = x.units := by
  rw [units_add hx hz, h, Int.add_zero]
  simpa using rounded_units x Nat.one_pos

theorem zero_eq : (0 : Binary64) = zero false := by
  have hnat : (0 : Binary64) = ofNat 0 := rfl
  simp [hnat, ofNat, ofQuotient, nearest_zero, limit_pos, zero]

theorem isFinite_zero : (0 : Binary64).isFinite := by
  rw [zero_eq, zero, isFinite_finite]

theorem nonneg_iff {x : Binary64} : 0 ≤ x ↔ x ≠ .nan ∧ 0 ≤ x.units := by
  rw [le_iff, zero_eq, units_zero]
  simp [zero]

theorem not_lt_zero_iff {x : Binary64} (hx : x.isFinite) : ¬ x < 0 ↔ 0 ≤ x := by
  have hnan := ne_nan_of_isFinite hx
  rw [lt_iff, nonneg_iff, zero_eq, units_zero]
  simp [zero, hnan]

/-- What is added to a number moves it only in its own direction. -/
protected theorem le_add_of_nonneg {x y : Binary64} (hx : x.isFinite) (hy : 0 ≤ y) : x ≤ x + y := by
  refine Binary64.le_trans (le_iff.2 ⟨ne_nan_of_isFinite hx, add_ne_nan hx ?_, ?_⟩)
    (Binary64.add_le_add_left hx hy)
  · simp [zero_eq, zero]
  · rw [units_add_zero hx (by simp [zero_eq, zero]) (by simp [zero_eq])]

protected theorem neg_le_neg {a b : Binary64} (h : a ≤ b) : -b ≤ -a := by
  obtain ⟨ha, hb, hle⟩ := le_iff.1 h
  exact le_iff.2 ⟨by simpa using hb, by simpa using ha, by simpa using hle⟩

theorem sub_le_of_nonneg {x y : Binary64} (hx : x.isFinite) (hy : 0 ≤ y) : x - y ≤ x := by
  have hneg : -y ≤ zero true := by
    rw [zero_eq] at hy
    exact Binary64.neg_le_neg hy
  refine Binary64.le_trans (Binary64.add_le_add_left hx hneg)
    (le_iff.2 ⟨add_ne_nan hx (by simp [zero]), ne_nan_of_isFinite hx, ?_⟩)
  rw [units_add_zero hx (by simp [zero]) (by simp)]

protected theorem sub_le_sub_right {a b c : Binary64} (hc : c.isFinite) (h : a ≤ b) :
    a - c ≤ b - c :=
  Binary64.add_le_add_right ((isFinite_neg c).trans hc) h

protected theorem mul_le_mul_left {a b p : Binary64} (hp : 0 ≤ p) (hfp : p.isFinite)
    (ha : a.isFinite) (hb : b.isFinite) (h : a ≤ b) : p * a ≤ p * b := by
  refine le_iff.2 ⟨mul_ne_nan hfp ha, mul_ne_nan hfp hb, ?_⟩
  rw [units_mul hfp ha, units_mul hfp hb]
  refine rounded_mono unit_pos unit_pos (Int.mul_le_mul_of_nonneg_right ?_ (Int.natCast_nonneg _))
  exact Int.mul_le_mul_of_nonneg_left (le_iff.1 h).2.2 (nonneg_iff.1 hp).2

protected theorem mul_nonneg {a b : Binary64} (ha : 0 ≤ a) (hfa : a.isFinite) (hb : 0 ≤ b)
    (hfb : b.isFinite) : 0 ≤ a * b := by
  refine nonneg_iff.2 ⟨mul_ne_nan hfa hfb, ?_⟩
  rw [units_mul hfa hfb]
  exact rounded_nonneg (Int.mul_nonneg (nonneg_iff.1 ha).2 (nonneg_iff.1 hb).2) unit

theorem units_ofNat (n : Nat) : (ofNat n).units = rounded ((n * unit : Nat) : Int) 1 :=
  units_ofQuotient false (n * unit) Nat.one_pos

theorem ofNat_ne_nan (n : Nat) : ofNat n ≠ .nan :=
  ofQuotient_ne_nan _ _ _

theorem ofNat_mono {m n : Nat} (h : m ≤ n) : ofNat m ≤ ofNat n := by
  refine le_iff.2 ⟨ofNat_ne_nan m, ofNat_ne_nan n, ?_⟩
  rw [units_ofNat, units_ofNat]
  refine rounded_natCast_mono Nat.one_pos Nat.one_pos ?_
  simpa using Nat.mul_le_mul_right unit h

theorem ofNat_nonneg (n : Nat) : 0 ≤ ofNat n :=
  ofNat_mono (Nat.zero_le n)

theorem mul_unit_lt_limit {n : Nat} (h : n ≤ 2 ^ 53) : n * unit < limit :=
  (Nat.mul_le_mul_right unit h).trans_lt (two_pow_mul_unit_lt_limit (by decide))

theorem ofNat_eq {n : Nat} (h : n ≤ 2 ^ 53) :
    ofNat n = finite false (n * unit) ⟨mul_unit_lt_limit h, aligned_mul_unit h⟩ := by
  have hnearest : nearest (n * unit) 1 = n * unit := by
    simpa using nearest_of_aligned (aligned_mul_unit h) Nat.one_pos
  simp [ofNat, ofQuotient, hnearest, mul_unit_lt_limit h]

theorem isFinite_ofNat {n : Nat} (h : n ≤ 2 ^ 53) : (ofNat n).isFinite := by
  rw [ofNat_eq h, isFinite_finite]

/-- Multiplying by one changes nothing, not even NaN or the sign of a zero. -/
protected theorem mul_one (x : Binary64) : x * 1 = x := by
  have hone : (1 : Binary64) = ofNat 1 := rfl
  rw [hone, ofNat_eq (by decide), mul_eq]
  cases x with
  | nan => rfl
  | infinite s => simp [mul, unit_pos.ne']
  | finite s m h =>
    have hnearest := nearest_of_aligned h.aligned unit_pos
    simp [mul, ofQuotient, hnearest, h.below]

theorem units_one : (1 : Binary64).units = (unit : Int) := by
  have hnat : (1 : Binary64) = ofNat 1 := rfl
  rw [hnat, ofNat_eq (by decide), units_finite, signed_false, Nat.one_mul]

theorem units_two : (2 : Binary64).units = (2 * unit : Nat) := by
  have hnat : (2 : Binary64) = ofNat 2 := rfl
  rw [hnat, ofNat_eq (by decide), units_finite, signed_false]

theorem isFinite_two : (2 : Binary64).isFinite :=
  isFinite_ofNat (by decide)

theorem units_two_pos : 0 < (2 : Binary64).units := by
  have := unit_pos
  rw [units_two]
  omega

theorem units_half {x : Binary64} (hx : x.isFinite) :
    (x / 2).units = rounded (x.units * unit) (2 * unit) := by
  rw [units_div hx isFinite_two units_two_pos, units_two, Int.natAbs_natCast]

theorem half_ne_nan {x : Binary64} (hx : x.isFinite) : x / 2 ≠ .nan :=
  div_ne_nan hx isFinite_two units_two_pos

theorem half_nonneg {x : Binary64} (hx : 0 ≤ x) (hfx : x.isFinite) : 0 ≤ x / 2 := by
  refine nonneg_iff.2 ⟨half_ne_nan hfx, ?_⟩
  rw [units_half hfx]
  exact rounded_nonneg (Int.mul_nonneg (nonneg_iff.1 hx).2 (Int.natCast_nonneg _)) _

theorem half_le {x : Binary64} (hx : 0 ≤ x) (hfx : x.isFinite) : x / 2 ≤ x := by
  refine le_iff.2 ⟨half_ne_nan hfx, ne_nan_of_isFinite hfx, ?_⟩
  have hexact : x.units * unit * (1 : Nat) ≤ x.units * (1 : Nat) * (2 * unit : Nat) := by
    have := Int.mul_nonneg (nonneg_iff.1 hx).2 (Int.natCast_nonneg unit)
    push_cast
    linarith
  calc (x / 2).units = rounded (x.units * unit) (2 * unit) := units_half hfx
    _ ≤ rounded (x.units * (1 : Nat)) 1 :=
        rounded_mono (Nat.mul_pos Nat.two_pos unit_pos) Nat.one_pos hexact
    _ = x.units := rounded_units x Nat.one_pos

theorem isFinite_half {x : Binary64} (hx : 0 ≤ x) (hfx : x.isFinite) : (x / 2).isFinite :=
  isFinite_of_le_of_le (half_nonneg hx hfx) (half_le hx hfx) isFinite_zero hfx

/-! ### Distances -/

theorem isFinite_of_isFinite_sub {a b : Binary64} (h : (a - b).isFinite) :
    a.isFinite ∧ b.isFinite := by
  obtain ⟨ha, hb⟩ := isFinite_of_isFinite_add h
  exact ⟨ha, (isFinite_neg b).symm.trans hb⟩

theorem units_sub {a b : Binary64} (ha : a.isFinite) (hb : b.isFinite) :
    (a - b).units = rounded (a.units - b.units) 1 := by
  have hsum := units_add ha ((isFinite_neg b).trans hb)
  rwa [units_neg, ← Int.sub_eq_add_neg] at hsum

theorem abs_lt_iff {x y : Binary64} :
    x.abs < y ↔ x ≠ .nan ∧ y ≠ .nan ∧ -y.units < x.units ∧ x.units < y.units := by
  have hpos := limit_pos
  rw [lt_iff]
  cases x with
  | nan => simp [abs]
  | infinite s =>
    have hbound := (units_bounds y).2
    cases s <;> simp [abs] <;> omega
  | finite s m h => cases s <;> simp [abs] <;> omega

/-- A difference that rounds to less than one is less than one. -/
theorem dist_lt_of_abs_sub_lt {a b t : Binary64} (ht : t ≤ 1) (h : (a - b).abs < t) :
    a.units - b.units < unit ∧ b.units - a.units < unit := by
  have hone := units_one
  have hexact : rounded unit 1 = unit := by
    have hunits := rounded_units 1 Nat.one_pos
    rwa [hone, Int.natCast_one, Int.mul_one] at hunits
  obtain ⟨hnan, -, hlow, hhigh⟩ := abs_lt_iff.1 h
  have hle := (le_iff.1 ht).2.2
  have hlimit : (unit : Int) < limit := by
    have hbelow := mul_unit_lt_limit (n := 1) (by decide)
    omega
  have hsub : (a - b).isFinite := isFinite_iff.2 ⟨hnan, by omega, by omega⟩
  obtain ⟨ha, hb⟩ := isFinite_of_isFinite_sub hsub
  rw [units_sub ha hb] at hlow hhigh
  constructor
  · by_contra hfar
    have hround : rounded unit 1 ≤ rounded (a.units - b.units) 1 :=
      rounded_mono Nat.one_pos Nat.one_pos (by omega)
    omega
  · by_contra hfar
    have hround : rounded (a.units - b.units) 1 ≤ rounded (-unit) 1 :=
      rounded_mono Nat.one_pos Nat.one_pos (by omega)
    rw [rounded_neg _ Nat.one_pos] at hround
    omega

/-- Naturals that are both less than one away from a number are neighbours. -/
theorem lt_add_two_of_abs_sub_lt {m n : Nat} {v t : Binary64} (hm : m ≤ 2 ^ 53) (hn : n ≤ 2 ^ 53)
    (ht : t ≤ 1) (hmv : (ofNat m - v).abs < t) (hnv : (ofNat n - v).abs < t) : n < m + 2 := by
  have hnear := dist_lt_of_abs_sub_lt ht hmv
  have hnear' := dist_lt_of_abs_sub_lt ht hnv
  rw [ofNat_eq hm, units_finite, signed_false] at hnear
  rw [ofNat_eq hn, units_finite, signed_false] at hnear'
  have hlt : n * unit < (m + 2) * unit := by
    rw [Nat.add_mul]
    omega
  exact Nat.lt_of_mul_lt_mul_right hlt

/-! ### Zeros of either sign -/

theorem isZero_iff {x : Binary64} : x.isZero ↔ x.isFinite ∧ x.units = 0 := by
  cases x with
  | nan => simp [isZero]
  | infinite s => simp [isZero]
  | finite s m h => cases s <;> simp [isZero]

theorem isFinite_of_isZero {z : Binary64} (hz : z.isZero) : z.isFinite :=
  (isZero_iff.1 hz).1

theorem not_lt_zero_of_isZero {z : Binary64} (hz : z.isZero) : ¬ z < 0 := by
  obtain ⟨hfinite, hunits⟩ := isZero_iff.1 hz
  rw [not_lt_zero_iff hfinite, nonneg_iff, hunits]
  exact ⟨ne_nan_of_isFinite hfinite, le_rfl⟩

theorem isZero_of_units_eq_zero {x : Binary64} (hx : x ≠ .nan) (h : x.units = 0) : x.isZero := by
  have hpos := limit_pos
  rw [isZero_iff, isFinite_iff, h]
  exact ⟨⟨hx, by omega, by omega⟩, rfl⟩

theorem rounded_zero {d : Nat} (hd : 0 < d) : rounded 0 d = 0 := by
  simpa using rounded_units (zero false) hd

theorem isZero_neg {z : Binary64} (hz : z.isZero) : (-z).isZero := by
  obtain ⟨hfinite, hunits⟩ := isZero_iff.1 hz
  rw [isZero_iff, isFinite_neg, units_neg, hunits]
  exact ⟨hfinite, Int.neg_zero⟩

theorem isZero_mul {z x : Binary64} (hz : z.isZero) (hx : x.isFinite) : (z * x).isZero := by
  obtain ⟨hfinite, hunits⟩ := isZero_iff.1 hz
  apply isZero_of_units_eq_zero (mul_ne_nan hfinite hx)
  rw [units_mul hfinite hx, hunits, Int.zero_mul, rounded_zero unit_pos]

theorem isZero_half {z : Binary64} (hz : z.isZero) : (z / 2).isZero := by
  obtain ⟨hfinite, hunits⟩ := isZero_iff.1 hz
  apply isZero_of_units_eq_zero (half_ne_nan hfinite)
  rw [units_half hfinite, hunits, Int.zero_mul, rounded_zero (Nat.mul_pos two_pos unit_pos)]

theorem isFinite_add_isZero {x z : Binary64} (hx : x.isFinite) (hz : z.isZero) :
    (x + z).isFinite := by
  obtain ⟨hfinite, hunits⟩ := isZero_iff.1 hz
  rw [isFinite_iff, units_add_zero hx hfinite hunits]
  exact ⟨add_ne_nan hx (ne_nan_of_isFinite hfinite), (isFinite_iff.1 hx).2⟩

theorem isFinite_sub_isZero {x z : Binary64} (hx : x.isFinite) (hz : z.isZero) :
    (x - z).isFinite :=
  isFinite_add_isZero hx (isZero_neg hz)

theorem isZero_ofNat_iff {n : Nat} : (ofNat n).isZero ↔ n = 0 := by
  constructor
  · intro hzero
    by_contra hne
    have hle := (le_iff.1 (ofNat_mono (Nat.one_le_iff_ne_zero.2 hne))).2.2
    have hone : (ofNat 1).units = (unit : Int) := units_one
    have hpos := unit_pos
    rw [(isZero_iff.1 hzero).2, hone] at hle
    omega
  · rintro rfl
    apply isZero_of_units_eq_zero (ofNat_ne_nan 0)
    rw [units_ofNat, Nat.zero_mul]
    exact rounded_zero one_pos

end CarrierTape.Binary64
