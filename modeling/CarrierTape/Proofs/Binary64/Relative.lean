import CarrierTape.Proofs.Binary64.Error
import CarrierTape.Proofs.Binary64.Nearest

/-!
Rounding in proportion. A normal number has all its 53 significant bits, so one rounding to it
is a change by 2^-53 of the exact result at most, unless that lies below the normal numbers. A
quotient that is multiplied by its divisor again has gone through two roundings, and for these
two even such a result is no exception (`within_mul_div`): it can only be just below the first
normal number, and there either the second rounding goes back to the start or the product is
exact.
-/

namespace CarrierTape.Binary64

-- Numbers of more than a thousand bits, which are never to be unfolded in search of a match.
attribute [local irreducible] limit unit

/-- The greatest change of a result by one rounding, in proportion to it: 2^-53. -/
def roundoff : ℚ :=
  1 / 2 ^ 53

/-- The first magnitude with 53 significant bits, 2^-1022. -/
def firstNormal : Nat :=
  2 ^ 52

/-- A finite number with all its significant bits. -/
def isNormal : Binary64 → Bool
  | .finite _ m _ => firstNormal ≤ m
  | _ => false

theorem roundoff_pos : 0 < roundoff := by
  norm_num [roundoff]

theorem roundoff_lt_one : roundoff < 1 := by
  norm_num [roundoff]

/-! ### One rounding -/

theorem spacing_mul_firstNormal_le {m : Nat} (h : firstNormal ≤ m) :
    spacing m * firstNormal ≤ m := by
  have hpos : 0 < firstNormal := Nat.two_pow_pos 52
  have hne : m ≠ 0 := by omega
  have hlog : 52 ≤ m.log2 := (Nat.le_log2 hne).2 h
  rw [spacing, firstNormal, ← Nat.pow_add, Nat.sub_add_cancel hlog]
  exact Nat.log2_self_le hne

theorem natCast_floor_lt {n d m : Nat} (hd : 0 < d) (h : n / d < m) : (n : ℚ) / d < m := by
  rw [div_lt_iff₀ (by exact_mod_cast hd)]
  exact_mod_cast (Nat.div_lt_iff_lt_mul hd).1 h

theorem abs_nearest_sub_le_mul {n d : Nat} (hd : 0 < d) (h : firstNormal ≤ n / d) :
    |(nearest n d : ℚ) - n / d| ≤ roundoff * (n / d) := by
  have hspacing : (spacing (n / d) : ℚ) * firstNormal ≤ n / d :=
    le_trans (by exact_mod_cast spacing_mul_firstNormal_le h) Nat.cast_div_le
  calc |(nearest n d : ℚ) - n / d| ≤ spacing (n / d) / 2 := abs_nearest_sub_le n hd
    _ = roundoff * (spacing (n / d) * firstNormal) := by
      rw [roundoff, firstNormal]
      push_cast
      ring
    _ ≤ roundoff * (n / d) := mul_le_mul_of_nonneg_left hspacing roundoff_pos.le

theorem nearest_le_mul {n d : Nat} (hd : 0 < d) (h : firstNormal ≤ n / d) :
    (nearest n d : ℚ) ≤ (1 + roundoff) * (n / d) := by
  have herror := (abs_le.1 (abs_nearest_sub_le_mul hd h)).2
  linarith

theorem mul_le_nearest {n d : Nat} (hd : 0 < d) (h : firstNormal ≤ nearest n d) :
    (1 - roundoff) * (n / d) ≤ (nearest n d : ℚ) := by
  rcases Nat.lt_or_ge (n / d) firstNormal with hbelow | hnormal
  · have hup : (n : ℚ) / d < nearest n d :=
      (natCast_floor_lt hd hbelow).trans_le (by exact_mod_cast h)
    have hshare : 0 ≤ roundoff * ((n : ℚ) / d) := mul_nonneg roundoff_pos.le (by positivity)
    linarith
  · have herror := (abs_le.1 (abs_nearest_sub_le_mul hd hnormal)).1
    linarith

/-- From below, only the first normal number is reached, and only from a distance that is
small in proportion to it. -/
theorem nearest_of_below {n d : Nat} (hd : 0 < d) (hbelow : n / d < firstNormal)
    (h : firstNormal ≤ nearest n d) :
    nearest n d = firstNormal ∧ (1 - roundoff) * firstNormal ≤ (n : ℚ) / d := by
  have heq : nearest n d = firstNormal := le_antisymm (nearest_le_two_pow hbelow) h
  have hspacing : (spacing (n / d) : ℚ) ≤ 1 := by
    exact_mod_cast spacing_le (e := 53) (hbelow.trans (by decide))
  have herror := (abs_le.1 (abs_nearest_sub_le n hd)).2
  rw [heq] at herror
  refine ⟨heq, ?_⟩
  have hhalf : roundoff * firstNormal = 1 / 2 := by norm_num [roundoff, firstNormal]
  linarith

theorem nearest_firstNormal_mul {F : Nat} (hF : Aligned F) (hone : unit ≤ F) :
    (nearest (firstNormal * F) unit : ℚ) = firstNormal * F / unit := by
  obtain ⟨r, a, rfl, hr, -⟩ := exists_significand hF
  -- the power of two in one is not to be evaluated, so its exponent gets a name
  obtain ⟨e, he⟩ : ∃ e, fractionBits = e + 52 := ⟨1022, rfl⟩
  have hunit : unit = 2 ^ (e + 52) := by rw [unit, he]
  have hexp : e ≤ a := by
    have hpow : 2 ^ (e + 52) < 2 ^ (53 + a) := by
      rw [← hunit, Nat.pow_add]
      exact hone.trans_lt (Nat.mul_lt_mul_of_pos_right hr (Nat.two_pow_pos a))
    have := (Nat.pow_lt_pow_iff_right one_lt_two).1 hpow
    omega
  have hwhole : firstNormal * (r * 2 ^ a) = r * 2 ^ (a - e) * unit := by
    rw [firstNormal, hunit, Nat.mul_assoc, ← Nat.pow_add, Nat.mul_left_comm, ← Nat.pow_add]
    congr 2
    omega
  rw [hwhole, nearest_of_aligned (aligned_mul_pow hr.le) unit_pos, eq_div_iff unit_cast_pos.ne']
  exact_mod_cast hwhole.symm

/-! ### A quotient and back -/

/-- Back from a quotient just below the first normal number: its divisor is greater than one,
so the product is exact. -/
theorem nearest_mul_of_below {m F : Nat} (hF : Aligned F) (hpos : 0 < F) (hm : firstNormal ≤ m)
    (hbelow : m * unit / F < firstNormal) (hquot : firstNormal ≤ nearest (m * unit) F) :
    (1 - roundoff) * (nearest (nearest (m * unit) F * F) unit : ℚ) ≤ m := by
  obtain ⟨hfirst, hlow⟩ := nearest_of_below hpos hbelow hquot
  have hone : unit ≤ F := by
    have hlt : m * unit < firstNormal * F := (Nat.div_lt_iff_lt_mul hpos).1 hbelow
    by_contra hless
    exact absurd (hlt.trans_le (Nat.mul_le_mul hm (Nat.le_of_not_le hless))) (lt_irrefl _)
  have hF0 : (0 : ℚ) < F := by exact_mod_cast hpos
  rw [le_div_iff₀ hF0] at hlow
  rw [hfirst, nearest_firstNormal_mul hF hone, ← mul_div_assoc, div_le_iff₀ unit_cast_pos]
  push_cast at hlow
  linarith

theorem exists_divisor {F : Nat} (hpos : 0 < F) :
    ∃ f : ℚ, 0 < f ∧ ∀ m : Nat, ((m * unit : Nat) : ℚ) / F = m / f ∧
      ((m * F : Nat) : ℚ) / unit = m * f := by
  have hunit := unit_cast_pos
  have hF0 : (0 : ℚ) < F := by exact_mod_cast hpos
  refine ⟨F / unit, div_pos hF0 hunit, fun m => ⟨?_, ?_⟩⟩ <;> push_cast <;> field_simp

/-- Two roundings, of a quotient and of its product with the divisor, lose no more than two
roundings can. -/
theorem mul_le_nearest_mul {m F : Nat} (hpos : 0 < F)
    (hquot : firstNormal ≤ nearest (m * unit) F)
    (hprod : firstNormal ≤ nearest (nearest (m * unit) F * F) unit) :
    (1 - roundoff) ^ 2 * m ≤ (nearest (nearest (m * unit) F * F) unit : ℚ) := by
  obtain ⟨f, hf0, hexact⟩ := exists_divisor hpos
  have hlowQuot := mul_le_nearest hpos hquot
  have hlowProd := mul_le_nearest unit_pos hprod
  rw [(hexact m).1] at hlowQuot
  rw [(hexact _).2] at hlowProd
  have hkept : 0 ≤ 1 - roundoff := by linarith [roundoff_lt_one]
  calc (1 - roundoff) ^ 2 * (m : ℚ) = (1 - roundoff) * ((1 - roundoff) * (m / f) * f) := by
        field_simp
    _ ≤ (1 - roundoff) * (nearest (m * unit) F * f) := by gcongr
    _ ≤ nearest (nearest (m * unit) F * F) unit := hlowProd

/-- Nor do they gain more, also where one of the exact results is below the normal numbers. -/
theorem nearest_mul_le_mul {m F : Nat} (hF : Aligned F) (hpos : 0 < F) (hm : firstNormal ≤ m)
    (hquot : firstNormal ≤ nearest (m * unit) F)
    (hprod : firstNormal ≤ nearest (nearest (m * unit) F * F) unit) :
    (nearest (nearest (m * unit) F * F) unit : ℚ) ≤ (1 + roundoff) ^ 2 * m := by
  have hu := roundoff_pos
  rcases Nat.lt_or_ge (nearest (m * unit) F * F / unit) firstNormal with hbelow | hprodNormal
  · -- the second rounding goes up to the first normal number, and the start is not below that
    rw [(nearest_of_below unit_pos hbelow hprod).1]
    calc (firstNormal : ℚ) ≤ m := by exact_mod_cast hm
      _ ≤ (1 + roundoff) ^ 2 * m :=
          le_mul_of_one_le_left (Nat.cast_nonneg m) (one_le_pow₀ (by linarith))
  rcases Nat.lt_or_ge (m * unit / F) firstNormal with hbelow | hquotNormal
  · have hback := nearest_mul_of_below hF hpos hm hbelow hquot
    set m' := nearest (nearest (m * unit) F * F) unit
    have hgain : 1 ≤ (1 + roundoff) ^ 2 * (1 - roundoff) := by norm_num [roundoff]
    calc (m' : ℚ) ≤ (1 + roundoff) ^ 2 * (1 - roundoff) * m' :=
          le_mul_of_one_le_left (Nat.cast_nonneg m') hgain
      _ = (1 + roundoff) ^ 2 * ((1 - roundoff) * m') := mul_assoc _ _ _
      _ ≤ (1 + roundoff) ^ 2 * m := mul_le_mul_of_nonneg_left hback (by positivity)
  · obtain ⟨f, hf0, hexact⟩ := exists_divisor hpos
    have hhighQuot := nearest_le_mul hpos hquotNormal
    have hhighProd := nearest_le_mul unit_pos hprodNormal
    rw [(hexact m).1] at hhighQuot
    rw [(hexact _).2] at hhighProd
    calc (nearest (nearest (m * unit) F * F) unit : ℚ)
        ≤ (1 + roundoff) * (nearest (m * unit) F * f) := hhighProd
      _ ≤ (1 + roundoff) * ((1 + roundoff) * (m / f) * f) := by gcongr
      _ = (1 + roundoff) ^ 2 * m := by field_simp

/-- `q` is what is left of `p` after at most `n` changes by `roundoff`, each in proportion to
the number that it changes. -/
def WithinRoundings (n : Nat) (p q : ℚ) : Prop :=
  ∃ ratio : ℚ, (1 - roundoff) ^ n ≤ ratio ∧ ratio ≤ (1 + roundoff) ^ n ∧ q = p * ratio

namespace WithinRoundings

variable {n n' : Nat} {p q r : ℚ}

theorem refl (n : Nat) (p : ℚ) : WithinRoundings n p p := by
  have hu := roundoff_pos
  have hu1 := roundoff_lt_one
  exact ⟨1, pow_le_one₀ (by linarith) (by linarith), one_le_pow₀ (by linarith), (mul_one p).symm⟩

theorem trans (h : WithinRoundings n p q) (h' : WithinRoundings n' q r) :
    WithinRoundings (n + n') p r := by
  have hu := roundoff_pos
  have hu1 := roundoff_lt_one
  obtain ⟨ratio, hlow, hhigh, rfl⟩ := h
  obtain ⟨ratio', hlow', hhigh', rfl⟩ := h'
  have hkept : 0 ≤ (1 - roundoff) ^ n' := pow_nonneg (by linarith) n'
  have hratio : 0 ≤ ratio := (pow_nonneg (by linarith) n).trans hlow
  refine ⟨ratio * ratio', ?_, ?_, mul_assoc p ratio ratio'⟩
  · rw [pow_add]
    exact mul_le_mul hlow hlow' hkept hratio
  · rw [pow_add]
    exact mul_le_mul hhigh hhigh' (hkept.trans hlow') (by positivity)

theorem bounds_of_pos (h : WithinRoundings n p q) (hp : 0 < p) :
    p * (1 - roundoff) ^ n ≤ q ∧ q ≤ p * (1 + roundoff) ^ n := by
  obtain ⟨ratio, hlow, hhigh, rfl⟩ := h
  exact ⟨mul_le_mul_of_nonneg_left hlow hp.le, mul_le_mul_of_nonneg_left hhigh hp.le⟩

theorem bounds_of_neg (h : WithinRoundings n p q) (hp : p < 0) :
    p * (1 + roundoff) ^ n ≤ q ∧ q ≤ p * (1 - roundoff) ^ n := by
  obtain ⟨ratio, hlow, hhigh, rfl⟩ := h
  exact ⟨mul_le_mul_of_nonpos_left hhigh hp.le, mul_le_mul_of_nonpos_left hlow hp.le⟩

end WithinRoundings

theorem ofQuotient_of_isNormal {s : Bool} {n d : Nat} (h : (ofQuotient s n d).isNormal) :
    firstNormal ≤ nearest n d ∧ ∃ hgrid, ofQuotient s n d = .finite s (nearest n d) hgrid := by
  unfold ofQuotient at h ⊢
  split_ifs at h ⊢ with hlimit
  · exact ⟨by simpa [isNormal] using h, onGrid_nearest hlimit, rfl⟩
  · simp [isNormal] at h

theorem isFinite_of_isNormal {x : Binary64} (h : x.isNormal) : x.isFinite := by
  cases x <;> simp_all [isNormal]

theorem toRat_finite_eq_mul (s : Bool) {k m : Nat} (hk : OnGrid k) (hm : OnGrid m)
    (hne : (m : ℚ) ≠ 0) : (finite s k hk).toRat = (finite s m hm).toRat * (k / m) := by
  have hsigned : (signed s k : ℚ) = signed s m * (k / m) := by
    cases s with
    | false => exact (mul_div_cancel₀ (k : ℚ) hne).symm
    | true =>
      rw [signed_true, signed_true]
      push_cast
      rw [neg_mul, mul_div_cancel₀ (k : ℚ) hne]
  rw [toRat, toRat, units_finite, units_finite, hsigned, mul_div_right_comm]

theorem within_mul_div {x g : Binary64} (hg : g.isFinite) (hpos : 0 < g.units) (hx : x.isNormal)
    (hquot : (x / g).isNormal) (hprod : (x / g * g).isNormal) :
    WithinRoundings 2 x.toRat (x / g * g).toRat := by
  obtain ⟨s, m, hm, rfl⟩ := exists_eq_finite (isFinite_of_isNormal hx)
  obtain ⟨t, F, hF, rfl⟩ := exists_eq_finite hg
  obtain ⟨rfl, hF0⟩ : t = false ∧ 0 < F := by
    cases t with
    | false => exact ⟨rfl, by simpa using hpos⟩
    | true => simp at hpos; omega
  have hstart : firstNormal ≤ m := by simpa [isNormal] using hx
  have hdiv (s : Bool) (m : Nat) (hm : OnGrid m) :
      finite s m hm / finite false F hF = ofQuotient s (m * unit) F := by
    rw [div_eq, div, if_neg hF0.ne', Bool.xor_false]
  have hmul (s : Bool) (m : Nat) (hm : OnGrid m) :
      finite s m hm * finite false F hF = ofQuotient s (m * F) unit := by
    rw [mul_eq, mul, Bool.xor_false]
  rw [hdiv] at hquot hprod ⊢
  obtain ⟨hnormal, hgrid, heq⟩ := ofQuotient_of_isNormal hquot
  rw [heq, hmul] at hprod ⊢
  obtain ⟨hnormal', hgrid', heq'⟩ := ofQuotient_of_isNormal hprod
  rw [heq']
  have hlow := mul_le_nearest_mul hF0 hnormal hnormal'
  have hhigh := nearest_mul_le_mul hF.aligned hF0 hstart hnormal hnormal'
  have hm0 : (0 : ℚ) < m := by exact_mod_cast (Nat.two_pow_pos 52).trans_le hstart
  exact ⟨_, (le_div_iff₀ hm0).2 hlow, (div_le_iff₀ hm0).2 hhigh, toRat_finite_eq_mul s _ hm hm0.ne'⟩

end CarrierTape.Binary64
