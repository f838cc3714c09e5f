import CarrierTape.Proofs.Binary64.Arithmetic
import CarrierTape.Tape.Drawing

/-!
What it takes for a tape to be valid, said without the order of the checks: its
dimensions are sound, and the outermost coordinates of its drawing are finite.
Drawing asks for nothing more, as a valid tape has few records, and so it fails only where
validation does.
-/

namespace CarrierTape.TapeSpec

open Binary64

def lengthValues (s : TapeSpec) : List Binary64 :=
  [s.tapeWidth, s.tapePitch, s.holeEdgeDistance, s.holeDiameter, s.partHoleOffset, s.partWidth,
    s.partHeight]

/-- Dimensions that can belong to a tape, wherever the coordinates end up. -/
structure Dimensioned (s : TapeSpec) : Prop where
  originX : s.originX.isFinite
  originY : s.originY.isFinite
  lengths : ∀ v ∈ s.lengthValues, v.isFinite ∧ ¬ v < 0
  partCount : s.partCount ≤ 1000000

theorem firstProblem?_eq_none_iff {check : Binary64 → Option Problem}
    {values : List (Parameter × Binary64)} :
    firstProblem? check values = none ↔ ∀ v ∈ values.map (·.2), check v = none := by
  simp only [firstProblem?, List.findSome?_eq_none_iff, Option.map_eq_none_iff, List.forall_mem_map]

theorem finiteProblem?_eq_none_iff {v : Binary64} : finiteProblem? v = none ↔ v.isFinite := by
  simp [finiteProblem?]

theorem lengthProblem?_eq_none_iff {v : Binary64} :
    lengthProblem? v = none ↔ v.isFinite ∧ ¬ v < 0 := by
  unfold lengthProblem?
  split <;> simp_all

theorem placeProblem?_eq_none_iff {v : Binary64} : placeProblem? v = none ↔ v.isFinite := by
  simp [placeProblem?]

theorem countError?_eq_none_iff {s : TapeSpec} : s.countError? = none ↔ s.partCount ≤ 1000000 := by
  unfold countError?
  split <;> simp_all [maxPartCount]

theorem map_lengths (s : TapeSpec) : s.lengths.map (·.2) = s.lengthValues := rfl

theorem valid_iff {s : TapeSpec} :
    s.Valid ↔ s.Dimensioned ∧ ∀ v ∈ s.extremes.map (·.2), v.isFinite := by
  have horElse {α : Type} (a b : Option α) : (a <|> b) = none ↔ a = none ∧ b = none := by
    cases a <;> simp
  simp only [Valid, error?, horElse, firstProblem?_eq_none_iff, countError?_eq_none_iff,
    finiteProblem?_eq_none_iff, lengthProblem?_eq_none_iff, placeProblem?_eq_none_iff, map_lengths]
  constructor
  · rintro ⟨horigins, hlengths, hcount, hextremes⟩
    exact ⟨⟨horigins _ (by simp [origins]), horigins _ (by simp [origins]), hlengths, hcount⟩,
      hextremes⟩
  · rintro ⟨⟨hx, hy, hlengths, hcount⟩, hextremes⟩
    exact ⟨by simp [origins, hx, hy], hlengths, hcount, hextremes⟩

theorem validate_eq_ok_iff {s t : TapeSpec} : s.validate = .ok t ↔ s.Valid ∧ t = s := by
  unfold validate Valid
  cases s.error? <;> simp [eq_comm]

theorem validate_eq_error_iff {s : TapeSpec} {error : TapeError} :
    s.validate = .error error ↔ s.error? = some error := by
  unfold validate
  cases s.error? <;> simp

theorem Valid.recordCount_lt {s : TapeSpec} (h : s.Valid) : s.recordCount < recordCountBound := by
  have hcount := (valid_iff.1 h).1.partCount
  simp only [recordCount, recordCountBound]
  omega

theorem draw_eq_ok_iff {layers : LayerMap} {s : TapeSpec} {records : List Record} :
    s.draw layers = .ok records ↔ s.Valid ∧ records = s.records layers := by
  have hdraw : s.draw layers = s.validate.bind fun s =>
      if s.recordCount < recordCountBound then .ok (s.records layers)
      else .error (.invalidParameter .partCount .tooManyRecords) := rfl
  rw [hdraw]
  by_cases hvalid : s.Valid
  · rw [validate_eq_ok_iff.2 ⟨hvalid, rfl⟩]
    simp [Except.bind, hvalid, hvalid.recordCount_lt, eq_comm]
  · cases hres : s.validate with
    | ok t => exact absurd (validate_eq_ok_iff.1 hres).1 hvalid
    | error e => simp [Except.bind, hvalid]

/-- A tape that cannot be drawn is not valid: its records are never too many. -/
theorem draw_eq_error_iff {layers : LayerMap} {s : TapeSpec} {error : TapeError} :
    s.draw layers = .error error ↔ s.validate = .error error := by
  by_cases hvalid : s.Valid
  · rw [draw_eq_ok_iff.2 ⟨hvalid, rfl⟩, validate_eq_ok_iff.2 ⟨hvalid, rfl⟩]
    exact iff_of_false nofun nofun
  · obtain ⟨e, he⟩ := Option.ne_none_iff_exists'.1 hvalid
    have hvalidate := validate_eq_error_iff.2 he
    have hdraw : s.draw layers = .error e := by
      rw [draw, hvalidate]
      rfl
    rw [hdraw, hvalidate, Except.error.injEq, Except.error.injEq]

theorem exists_of_firstProblem? {check : Binary64 → Option Problem}
    {values : List (Parameter × Binary64)} {parameter : Parameter} {problem : Problem}
    (h : firstProblem? check values = some (.invalidParameter parameter problem)) :
    ∃ v, (parameter, v) ∈ values ∧ check v = some problem := by
  obtain ⟨⟨p, v⟩, hmem, hv⟩ := List.exists_of_findSome?_eq_some h
  simp only [Option.map_eq_some_iff, TapeError.invalidParameter.injEq] at hv
  obtain ⟨_, hcheck, rfl, rfl⟩ := hv
  exact ⟨v, hmem, hcheck⟩

theorem error?_ne_tooManyRecords (s : TapeSpec) (parameter : Parameter) :
    s.error? ≠ some (.invalidParameter parameter .tooManyRecords) := by
  have horElse {α : Type} {a b : Option α} {c : α} (h : (a <|> b) = some c) :
      a = some c ∨ b = some c := by
    cases a with
    | none => exact .inr h
    | some _ => exact .inl h
  intro h
  rcases horElse h with h | h
  · obtain ⟨v, -, hv⟩ := exists_of_firstProblem? h
    simp [finiteProblem?] at hv
  rcases horElse h with h | h
  · obtain ⟨v, -, hv⟩ := exists_of_firstProblem? h
    unfold lengthProblem? at hv
    split_ifs at hv <;> cases hv
  rcases horElse h with h | h
  · simp [countError?] at h
  · obtain ⟨v, -, hv⟩ := exists_of_firstProblem? h
    simp [placeProblem?] at hv

end CarrierTape.TapeSpec
