import CarrierTape.Binary64.Basic
import CarrierTape.Proofs.Binary64.Rounding
import Mathlib.Tactic.Linarith
import Mathlib.Tactic.Positivity

/-!
The order of binary64 numbers, and how the operations respect it. The `units` of
a number are its signed magnitude; the infinities stand where the finite range
ends. Every operation on finite numbers is its exact result in units put through
`rounded`, so one fact carries all comparisons: `rounded_mono`.
-/

namespace CarrierTape.Binary64

-- A number of 2099 bits, which is never to be unfolded in search of a match.
attribute [local irreducible] limit

/-- The signed magnitude. Infinities count as the first magnitude that is no
longer finite. -/
def units : Binary64 → Int
  | .nan => 0
  | .infinite s => signed s limit
  | .finite s m _ => signed s m

/-- The exact result `k / d` brought to the grid, or to the end of the finite range. -/
def rounded (k : Int) (d : Nat) : Int :=
  signed (k < 0) (min (nearest k.natAbs d) limit)

/-- Arithmetic comparison. NaN stands in no relation to anything. -/
instance : LE Binary64 :=
  ⟨fun a b => a < b ∨ a.equals b = true⟩

instance (a b : Binary64) : Decidable (a ≤ b) :=
  inferInstanceAs (Decidable (_ ∨ _))

@[simp] theorem signed_false (m : Nat) : signed false m = m := rfl

@[simp] theorem signed_true (m : Nat) : signed true m = -m := rfl

@[simp] theorem signed_zero (s : Bool) : signed s 0 = 0 := by
  cases s <;> rfl

@[simp] theorem natAbs_signed (s : Bool) (m : Nat) : (signed s m).natAbs = m := by
  cases s <;> simp

@[simp] theorem units_finite (s : Bool) (m : Nat) (h : OnGrid m) :
    (finite s m h).units = signed s m := rfl

@[simp] theorem units_infinite (s : Bool) : (infinite s).units = signed s limit := rfl

@[simp] theorem units_zero (s : Bool) : (zero s).units = 0 :=
  signed_zero s

@[simp] theorem isFinite_nan : nan.isFinite = false := rfl

@[simp] theorem isFinite_infinite (s : Bool) : (infinite s).isFinite = false := rfl

@[simp] theorem isFinite_finite (s : Bool) (m : Nat) (h : OnGrid m) :
    (finite s m h).isFinite = true := rfl

theorem exists_eq_finite {x : Binary64} (h : x.isFinite) : ∃ s m hm, x = .finite s m hm := by
  cases x with
  | nan | infinite => simp at h
  | finite s m hm => exact ⟨s, m, hm, rfl⟩

theorem ne_nan_of_isFinite {x : Binary64} (h : x.isFinite) : x ≠ .nan := by
  rintro rfl
  simp at h

theorem isFinite_iff {x : Binary64} :
    x.isFinite ↔ x ≠ .nan ∧ -(limit : Int) < x.units ∧ x.units < limit := by
  cases x with
  | nan => simp
  | infinite s => cases s <;> simp
  | finite s m h =>
    have hlt := h.below
    cases s <;> simp <;> omega

theorem lt_iff {a b : Binary64} : a < b ↔ a ≠ .nan ∧ b ≠ .nan ∧ a.units < b.units := by
  have hpos := limit_pos
  change less a b = true ↔ _
  cases a with
  | nan => simp [less]
  | infinite s =>
    cases b with
    | nan => simp [less]
    | infinite t => cases s <;> cases t <;> simp [less]; omega
    | finite t n hn =>
      have hlt := hn.below
      cases s <;> cases t <;> simp [less] <;> omega
  | finite s m hm =>
    have hlt := hm.below
    cases b with
    | nan => simp [less]
    | infinite t => cases s <;> cases t <;> simp [less] <;> omega
    | finite t n hn => simp [less]

theorem equals_iff {a b : Binary64} :
    a.equals b = true ↔ a ≠ .nan ∧ b ≠ .nan ∧ a.units = b.units := by
  have hpos := limit_pos
  cases a with
  | nan => simp [equals]
  | infinite s =>
    cases b with
    | nan => simp [equals]
    | infinite t => cases s <;> cases t <;> simp [equals] <;> omega
    | finite t n hn =>
      have hlt := hn.below
      cases s <;> cases t <;> simp [equals] <;> omega
  | finite s m hm =>
    have hlt := hm.below
    cases b with
    | nan => simp [equals]
    | infinite t => cases s <;> cases t <;> simp [equals] <;> omega
    | finite t n hn => simp [equals]

theorem equals_symm {a b : Binary64} (h : a.equals b = true) : b.equals a = true := by
  rw [equals_iff] at h ⊢
  exact ⟨h.2.1, h.1, h.2.2.symm⟩

theorem equals_trans {a b c : Binary64} (hab : a.equals b = true)
    (hbc : b.equals c = true) : a.equals c = true := by
  rw [equals_iff] at hab hbc ⊢
  exact ⟨hab.1, hbc.2.1, hab.2.2.trans hbc.2.2⟩

theorem le_iff {a b : Binary64} : a ≤ b ↔ a ≠ .nan ∧ b ≠ .nan ∧ a.units ≤ b.units := by
  change a < b ∨ a.equals b = true ↔ _
  rw [lt_iff, equals_iff, Int.le_iff_lt_or_eq]
  tauto

protected theorem le_trans {a b c : Binary64} (hab : a ≤ b) (hbc : b ≤ c) : a ≤ c := by
  rw [le_iff] at hab hbc ⊢
  exact ⟨hab.1, hbc.2.1, hab.2.2.trans hbc.2.2⟩

theorem units_bounds (x : Binary64) : -(limit : Int) ≤ x.units ∧ x.units ≤ limit := by
  have hpos := limit_pos
  cases x with
  | nan => simp [units]
  | infinite s => cases s <;> simp
  | finite s m h =>
    have hlt := h.below
    cases s <;> simp <;> omega

theorem infinite_true_le {x : Binary64} (h : x ≠ .nan) : infinite true ≤ x :=
  le_iff.2 ⟨by simp, h, x.units_bounds.1⟩

theorem le_infinite_false {x : Binary64} (h : x ≠ .nan) : x ≤ infinite false :=
  le_iff.2 ⟨h, by simp, x.units_bounds.2⟩

theorem units_lt_limit {x : Binary64} (h : x ≠ infinite false) : x.units < limit := by
  have hpos := limit_pos
  cases x with
  | nan => simpa [units] using hpos
  | infinite s =>
    cases s with
    | false => exact absurd rfl h
    | true => simp; omega
  | finite s m hm =>
    have hlt := hm.below
    cases s <;> simp <;> omega

theorem neg_limit_lt_units {x : Binary64} (h : x ≠ infinite true) : -(limit : Int) < x.units := by
  have hpos := limit_pos
  cases x with
  | nan => simpa [units] using hpos
  | infinite s =>
    cases s with
    | false => simp; omega
    | true => exact absurd rfl h
  | finite s m hm =>
    have hlt := hm.below
    cases s <;> simp <;> omega

theorem isFinite_of_le_of_le {a x b : Binary64} (hax : a ≤ x) (hxb : x ≤ b) (ha : a.isFinite)
    (hb : b.isFinite) : x.isFinite := by
  rw [le_iff] at hax hxb
  rw [isFinite_iff] at ha hb ⊢
  exact ⟨hax.2.1, by omega, by omega⟩

theorem rounded_natCast (n d : Nat) : rounded n d = (min (nearest n d) limit : Nat) := by
  have hneg : ¬ (n : Int) < 0 := by omega
  simp [rounded, hneg]

theorem rounded_neg (k : Int) {d : Nat} (hd : 0 < d) : rounded (-k) d = -rounded k d := by
  rcases lt_trichotomy k 0 with hk | rfl | hk
  · have hneg : ¬ 0 < k := by omega
    simp [rounded, hk, hneg]
  · simp [rounded, nearest_zero hd]
  · have hpos : ¬ k < 0 := by omega
    simp [rounded, hk, hpos]

theorem rounded_natCast_mono {n d n' d' : Nat} (hd : 0 < d) (hd' : 0 < d')
    (h : n * d' ≤ n' * d) : rounded n d ≤ rounded n' d' := by
  have hle := nearest_mono hd hd' h
  rw [rounded_natCast, rounded_natCast]
  omega

theorem rounded_natCast_nonneg (n d : Nat) : 0 ≤ rounded n d := by
  rw [rounded_natCast]
  omega

theorem rounded_nonneg {k : Int} (h : 0 ≤ k) (d : Nat) : 0 ≤ rounded k d := by
  obtain ⟨n, rfl⟩ := Int.eq_ofNat_of_zero_le h
  exact rounded_natCast_nonneg n d

/-- Of results with unlike signs zero lies between them; two negative ones are
mirrored. -/
theorem rounded_mono {k k' : Int} {d d' : Nat} (hd : 0 < d) (hd' : 0 < d')
    (h : k * d' ≤ k' * d) : rounded k d ≤ rounded k' d' := by
  rcases Int.le_total 0 k with hk | hk
  · have hk' : 0 ≤ k' := by
      have hprod : 0 ≤ k' * d := (Int.mul_nonneg hk (by positivity)).trans h
      exact nonneg_of_mul_nonneg_left hprod (by positivity)
    obtain ⟨n, rfl⟩ := Int.eq_ofNat_of_zero_le hk
    obtain ⟨n', rfl⟩ := Int.eq_ofNat_of_zero_le hk'
    exact rounded_natCast_mono hd hd' (by exact_mod_cast h)
  obtain ⟨n, rfl⟩ := Int.exists_eq_neg_ofNat hk
  rw [rounded_neg _ hd]
  rcases Int.le_total 0 k' with hk' | hk'
  · obtain ⟨n', rfl⟩ := Int.eq_ofNat_of_zero_le hk'
    have hneg := rounded_natCast_nonneg n d
    have hpos := rounded_natCast_nonneg n' d'
    omega
  · obtain ⟨n', rfl⟩ := Int.exists_eq_neg_ofNat hk'
    rw [rounded_neg _ hd']
    rw [Int.neg_mul, Int.neg_mul, Int.neg_le_neg_iff] at h
    exact Int.neg_le_neg (rounded_natCast_mono hd' hd (by exact_mod_cast h))

theorem rounded_mul_of_aligned {m : Nat} (h : Aligned m) (hle : m ≤ limit) (s : Bool) {d : Nat}
    (hd : 0 < d) : rounded (signed s m * d) d = signed s m := by
  have hfixed : rounded ((m : Int) * d) d = m := by
    rw [← Int.natCast_mul, rounded_natCast, nearest_of_aligned h hd, Nat.min_eq_left hle]
  cases s with
  | false => exact hfixed
  | true => rw [signed_true, Int.neg_mul, rounded_neg _ hd, hfixed]

theorem rounded_units (x : Binary64) {d : Nat} (hd : 0 < d) :
    rounded (x.units * d) d = x.units := by
  cases x with
  | nan => exact rounded_mul_of_aligned onGrid_zero.aligned (Nat.zero_le limit) false hd
  | infinite s => exact rounded_mul_of_aligned aligned_limit (Nat.le_refl limit) s hd
  | finite s m h => exact rounded_mul_of_aligned h.aligned h.below.le s hd

end CarrierTape.Binary64
