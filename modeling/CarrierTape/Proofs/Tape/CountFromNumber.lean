import CarrierTape.Proofs.Tape.Blame

/-!
Counts of pockets that are given as numbers. The checks leave exactly the naturals within the
limit, and on these nothing is lost in the last step, when the number becomes a word of the
machine: `Binary64.toWord` would cut off a fraction, and would bring a number that is too small
or too large into its range, but no such number gets that far (`partCountOf_exact`).
-/

namespace CarrierTape

namespace Binary64

variable {v : Binary64} {k : Nat}

theorem units_eq_of_toRat_eq (h : v.toRat = k) : v.units = (k * unit : Nat) := by
  have hscaled := toRat_mul_unit v
  rw [h] at hscaled
  exact_mod_cast hscaled.symm

theorem toRat_eq_of_units_eq (h : v.units = (k * unit : Nat)) : v.toRat = k := by
  rw [toRat, h, div_eq_iff unit_cast_pos.ne']
  push_cast
  rfl

/-- A number that is a natural becomes this natural as a word, if there is room for it. -/
theorem natural_of_toRat_eq (hfinite : v.isFinite) (h : v.toRat = k) :
    ¬ v < 0 ∧ v.isWhole ∧ ∀ bits, k < 2 ^ bits → v.toWord bits = k := by
  have hunits := units_eq_of_toRat_eq h
  have hneg : ¬ v < 0 := by
    rw [not_lt_zero_iff hfinite, nonneg_iff, hunits]
    exact ⟨ne_nan_of_isFinite hfinite, Int.natCast_nonneg _⟩
  obtain ⟨s, m, hm, rfl⟩ := exists_eq_finite hfinite
  have hmagnitude : m = k * unit := by
    rw [← natAbs_signed s m, ← units_finite s m hm, hunits, Int.natAbs_natCast]
  have hquotient : m / unit = k := by rw [hmagnitude, Nat.mul_div_cancel k unit_pos]
  refine ⟨hneg, ?_, fun bits hbits => ?_⟩
  · rw [isWhole, hmagnitude, Nat.mul_mod_left]
    rfl
  · cases s with
    | false =>
      simp only [toWord, hquotient, Bool.false_eq_true, if_false]
      omega
    | true =>
      -- only a zero has a sign here
      rw [units_finite, signed_true] at hunits
      have hzero : k * unit = 0 := by omega
      exact ((Nat.mul_eq_zero.1 hzero).resolve_right unit_pos.ne').symm

theorem exists_natural (hfinite : v.isFinite) (hneg : ¬ v < 0) (hwhole : v.isWhole) :
    ∃ k : Nat, v.toRat = k := by
  have hnonneg := (nonneg_iff.1 ((not_lt_zero_iff hfinite).1 hneg)).2
  obtain ⟨s, m, hm, rfl⟩ := exists_eq_finite hfinite
  refine ⟨m / unit, toRat_eq_of_units_eq ?_⟩
  have hmod : m % unit = 0 := by simpa [isWhole] using hwhole
  have hdiv : m / unit * unit = m := Nat.div_mul_cancel (Nat.dvd_of_mod_eq_zero hmod)
  rw [hdiv, units_finite]
  cases s with
  | false => rfl
  | true =>
    rw [units_finite, signed_true] at hnonneg
    rw [signed_true]
    omega

theorem ofNat_lt_iff {limit : Nat} (hlimit : limit ≤ 2 ^ 53) (hfinite : v.isFinite)
    (h : v.toRat = k) : ofNat limit < v ↔ limit < k := by
  rw [lt_iff, units_eq_of_toRat_eq h, ofNat_eq hlimit, units_finite, signed_false, Int.ofNat_lt,
    Nat.mul_lt_mul_right unit_pos]
  exact ⟨fun hlt => hlt.2.2, fun hlt => ⟨nofun, ne_nan_of_isFinite hfinite, hlt⟩⟩

end Binary64

open Binary64

variable {v : Binary64} {k : Nat}

/-! ### The checks -/

theorem partCountOf_eq_ok_iff :
    partCountOf v = .ok k ↔ k ≤ 1000000 ∧ v.isFinite ∧ v.toRat = k := by
  unfold partCountOf
  constructor
  · intro h
    split_ifs at h with hfinite hneg hwhole hmany
    have hfinite : v.isFinite := by simpa using hfinite
    obtain ⟨n, hexact⟩ := exists_natural hfinite hneg (by simpa using hwhole)
    rw [ofNat_lt_iff (by decide) hfinite hexact] at hmany
    have hn : n ≤ 1000000 := Nat.not_lt.1 hmany
    obtain ⟨-, -, hword⟩ := natural_of_toRat_eq hfinite hexact
    rw [hword 64 (hn.trans_lt (by decide)), Except.ok.injEq] at h
    subst h
    exact ⟨hn, hfinite, hexact⟩
  · rintro ⟨hk, hfinite, hexact⟩
    obtain ⟨hneg, hwhole, hword⟩ := natural_of_toRat_eq hfinite hexact
    have hpart := hword 64 (hk.trans_lt (by decide))
    have hmany : ¬ Binary64.ofNat maxPartCount < v := by
      rw [ofNat_lt_iff (by decide) hfinite hexact]
      exact Nat.not_lt.2 hk
    simp [hfinite, hneg, hwhole, hmany, hpart]

theorem partCountOf_ofNat {n : Nat} (h : n ≤ 1000000) : partCountOf (.ofNat n) = .ok n := by
  have hexact : n ≤ 2 ^ 53 := h.trans (by decide)
  exact partCountOf_eq_ok_iff.2 ⟨h, Binary64.isFinite_ofNat hexact, toRat_ofNat hexact⟩

theorem exists_of_partCountOf {error : TapeError} (h : partCountOf v = .error error) :
    ∃ problem, error = .invalidParameter .partCount problem := by
  unfold partCountOf at h
  split_ifs at h <;> exact ⟨_, (Except.error.inj h).symm⟩

theorem TapeSpec.validate_ne_partCount {s : TapeSpec} (h : s.partCount ≤ 1000000)
    (problem : Problem) : s.validate ≠ .error (.invalidParameter .partCount problem) := by
  intro hblame
  rcases blame_cases hblame with ⟨before, after, hsplit, -⟩ | ⟨-, hmany, -⟩ | ⟨-, hplace⟩
  · have hmem : Parameter.partCount ∈ Parameter.measures := by
      rw [hsplit]
      exact List.mem_append_right before List.mem_cons_self
    exact absurd hmem (by decide)
  · omega
  · obtain ⟨v, hmem, -⟩ := exists_of_firstProblem? hplace
    unfold extremes at hmem
    cases hcount : s.partCount <;> simp [hcount] at hmem

/-- A number is accepted as a count exactly if it is a natural up to a million, and then it is
that count: no word with room for a million changes it, and no tape is refused for it. Every
other number is refused as a count of pockets, and every count up to a million is the one of some
number. -/
theorem partCountOf_exact (v : Binary64) :
    (∀ k : Nat, partCountOf v = .ok k ↔ k ≤ 1000000 ∧ v.isFinite ∧ v.toRat = k) ∧
    ((¬ ∃ k, partCountOf v = .ok k) →
      ∃ problem, partCountOf v = .error (.invalidParameter .partCount problem)) ∧
    (∀ k, partCountOf v = .ok k →
      (∀ bits, 20 ≤ bits → v.toWord bits = k) ∧
      ∀ (s : TapeSpec) (problem : Problem),
        (s.withPartCount k).validate ≠ .error (.invalidParameter .partCount problem)) ∧
    ∀ k ≤ 1000000, (Binary64.ofNat k).toRat = k ∧ partCountOf (.ofNat k) = .ok k := by
  refine ⟨fun k => partCountOf_eq_ok_iff, fun hnone => ?_, fun k h => ⟨fun bits hbits => ?_, ?_⟩,
    fun k hk => ⟨toRat_ofNat (hk.trans (by decide)), partCountOf_ofNat hk⟩⟩
  · cases hresult : partCountOf v with
    | ok k => exact absurd ⟨k, hresult⟩ hnone
    | error error =>
      obtain ⟨problem, rfl⟩ := exists_of_partCountOf hresult
      exact ⟨problem, rfl⟩
  · obtain ⟨hk, hfinite, hexact⟩ := partCountOf_eq_ok_iff.1 h
    obtain ⟨-, -, hword⟩ := natural_of_toRat_eq hfinite hexact
    refine hword bits (hk.trans_lt ?_)
    calc 1000000 < 2 ^ 20 := by decide
      _ ≤ 2 ^ bits := Nat.pow_le_pow_right two_pos hbits
  · intro s problem
    exact TapeSpec.validate_ne_partCount (partCountOf_eq_ok_iff.1 h).1 problem

/-- The zero with a sign is a count. What is next to a million is none, although a word would
make a count of it. -/
theorem partCountOf_exact_edges :
    let below : Binary64 := 999999.9999999999
    partCountOf (zero true) = .ok 0 ∧ (zero true).toWord 64 = 0 ∧
      below ≠ 1000000 ∧ below.toWord 64 = 999999 ∧
      ∃ problem, partCountOf below = .error (.invalidParameter .partCount problem) := by
  intro below
  obtain ⟨hcount, -, hword, -⟩ := partCountOf_exact (zero true)
  obtain ⟨-, hrefused, -⟩ := partCountOf_exact below
  have hzero : partCountOf (zero true) = .ok 0 :=
    (hcount 0).2 ⟨Nat.zero_le _, rfl, toRat_eq_of_units_eq (by rw [units_zero, Nat.zero_mul]; rfl)⟩
  have hnone : ¬ ∃ k, partCountOf below = .ok k := by
    rintro ⟨k, hk⟩
    have herror : partCountOf below = .error (.invalidParameter .partCount (.notWhole below)) := by
      decide +kernel
    rw [herror] at hk
    cases hk
  exact ⟨hzero, (hword 0 hzero).1 64 (by decide), by decide +kernel, by decide +kernel,
    hrefused hnone⟩

end CarrierTape
