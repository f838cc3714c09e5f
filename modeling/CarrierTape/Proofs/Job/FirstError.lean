import CarrierTape.Proofs.Job.Placement

/-!
Which tape a job is refused for. Entries are placed from the first one on, so placing
stops at the first entry that cannot be resolved where the tapes before it leave it
(`placeFrom_eq_error_iff`). What stands behind that entry is never looked at: a job that
is cut behind it is refused for the same reason, and one that is cut before it is not
refused at all (`resolve_upTo`).
-/

namespace CarrierTape.Job

theorem Placed.placeFrom_append {gap x : Binary64} {before : List TapeEntry}
    {placed : List PlacedTape} (h : Placed gap x before placed) (index : Nat)
    (rest : List TapeEntry) :
    placeFrom gap x index (before ++ rest) =
      (placed ++ (placeFrom gap (freePlace gap x placed) (index + before.length) rest).1,
        (placeFrom gap (freePlace gap x placed) (index + before.length) rest).2) := by
  induction h generalizing index with
  | nil x => rfl
  | @cons x e s before placed hentry _ ih =>
    have hindex : index + (e :: before).length = index + 1 + before.length := by
      rw [List.length_cons]
      omega
    rw [List.cons_append, placeFrom_of_resolve hentry, ih, hindex]
    rfl

theorem placed_or_stopped (gap : Binary64) (entries : List TapeEntry) : ∀ x : Binary64,
    (∃ placed, Placed gap x entries placed) ∨
      ∃ before e rest placed cause, entries = before ++ e :: rest ∧ Placed gap x before placed ∧
        e.resolve (freePlace gap x placed) = .error cause := by
  induction entries with
  | nil => exact fun x => .inl ⟨[], .nil x⟩
  | cons e rest ih =>
    intro x
    cases hentry : e.resolve x with
    | error cause => exact .inr ⟨[], e, rest, [], cause, rfl, .nil x, hentry⟩
    | ok s =>
      rcases ih (nextOrigin gap s) with
        ⟨placed, hplaced⟩ | ⟨before, bad, behind, placed, cause, rfl, hplaced, hbad⟩
      · exact .inl ⟨_, .cons hentry hplaced⟩
      · exact .inr ⟨e :: before, bad, behind, _, cause, rfl, .cons hentry hplaced, hbad⟩

theorem placeFrom_eq_error_iff {gap x : Binary64} {entries : List TapeEntry}
    {placed : List PlacedTape} {error : JobError} (index : Nat) :
    placeFrom gap x index entries = (placed, some error) ↔
      ∃ before e rest cause, entries = before ++ e :: rest ∧ Placed gap x before placed ∧
        e.resolve (freePlace gap x placed) = .error cause ∧
        error = .entry (index + before.length) e.label cause := by
  have hstop {before : List TapeEntry} {e : TapeEntry} {placed : List PlacedTape}
      {cause : EntryError} (hplaced : Placed gap x before placed)
      (hbad : e.resolve (freePlace gap x placed) = .error cause) (rest : List TapeEntry) :
      placeFrom gap x index (before ++ e :: rest) =
        (placed, some (.entry (index + before.length) e.label cause)) := by
    rw [hplaced.placeFrom_append, placeFrom_of_error hbad, List.append_nil]
  constructor
  · intro h
    rcases placed_or_stopped gap entries x with
      ⟨all, hall⟩ | ⟨before, e, rest, first, cause, rfl, hplaced, hbad⟩
    · rw [(placeFrom_eq_iff index).2 hall] at h
      cases h
    · rw [hstop hplaced hbad rest] at h
      cases h
      exact ⟨before, e, rest, cause, rfl, hplaced, hbad, rfl⟩
  · rintro ⟨before, e, rest, cause, rfl, hplaced, hbad, rfl⟩
    exact hstop hplaced hbad rest

def ValidGap (job : Job) : Prop :=
  job.gap.toMillimetres.isFinite ∧ ¬ job.gap.toMillimetres < 0

instance (job : Job) : Decidable job.ValidGap :=
  inferInstanceAs (Decidable (_ ∧ _))

theorem error?_of_validGap {job : Job} (hgap : job.ValidGap) (hne : job.tapes ≠ []) :
    job.error? = none :=
  error?_eq_none_iff.2 ⟨hne, hgap⟩

theorem error?_of_not_validGap {job : Job} (hgap : ¬ job.ValidGap) (hne : job.tapes ≠ []) :
    job.error? = some (.invalidGap job.gap) := by
  by_cases hfinite : job.gap.toMillimetres.isFinite
  · have hneg : job.gap.toMillimetres < 0 := by
      by_contra hnot
      exact hgap ⟨hfinite, hnot⟩
    simp [error?, hne, hneg]
  · simp [error?, hne, hfinite]

theorem resolve_of_error? {job : Job} {error : JobError} (h : job.error? = some error) :
    job.resolve = .error error := by
  rw [resolve, place, h]

theorem resolve_eq_error_iff {job : Job} {error : JobError} (hgap : job.ValidGap)
    (hne : job.tapes ≠ []) :
    job.resolve = .error error ↔
      ∃ before e rest placed cause, job.tapes = before ++ e :: rest ∧
        Placed job.gap.toMillimetres 0 before placed ∧
        e.resolve (freePlace job.gap.toMillimetres 0 placed) = .error cause ∧
        error = .entry before.length e.label cause := by
  have hplace : job.place = placeFrom job.gap.toMillimetres 0 0 job.tapes := by
    rw [place, error?_of_validGap hgap hne]
  have herror : job.resolve = .error error ↔
      ∃ placed, placeFrom job.gap.toMillimetres 0 0 job.tapes = (placed, some error) := by
    unfold resolve
    rw [hplace]
    rcases placeFrom job.gap.toMillimetres 0 0 job.tapes with ⟨placed, _ | cause⟩ <;> simp
  rw [herror]
  simp only [placeFrom_eq_error_iff, Nat.zero_add]
  constructor
  · rintro ⟨placed, before, e, rest, cause, h⟩
    exact ⟨before, e, rest, placed, cause, h⟩
  · rintro ⟨before, e, rest, placed, cause, h⟩
    exact ⟨placed, before, e, rest, cause, h⟩

def upTo (job : Job) (k : Nat) : Job :=
  { job with tapes := job.tapes.take k }

theorem upTo_ne_nil {job : Job} (hne : job.tapes ≠ []) {k : Nat} (hk : 1 ≤ k) :
    (job.upTo k).tapes ≠ [] := by
  rw [upTo, Ne, List.take_eq_nil_iff]
  rintro (hzero | hnil)
  · omega
  · exact hne hnil

theorem resolve_of_tapes_eq_nil {job : Job} (h : job.tapes = []) : job.resolve = .error .empty :=
  resolve_of_error? (by simp [error?, h])

theorem eq_entry_of_resolve_eq_error {job : Job} {error : JobError} (hgap : job.ValidGap)
    (hne : job.tapes ≠ []) (h : job.resolve = .error error) :
    ∃ index name cause, error = .entry index name cause := by
  obtain ⟨before, e, -, -, cause, -, -, -, rfl⟩ := (resolve_eq_error_iff hgap hne).1 h
  exact ⟨before.length, e.label, cause, rfl⟩

theorem resolve_eq_empty_iff {job : Job} : job.resolve = .error .empty ↔ job.tapes = [] := by
  refine ⟨fun h => ?_, resolve_of_tapes_eq_nil⟩
  by_contra hne
  by_cases hgap : job.ValidGap
  · obtain ⟨_, _, _, hentry⟩ := eq_entry_of_resolve_eq_error hgap hne h
    cases hentry
  · rw [resolve_of_error? (error?_of_not_validGap hgap hne)] at h
    cases h

theorem resolve_eq_invalidGap_iff {job : Job} {gap : Length} :
    job.resolve = .error (.invalidGap gap) ↔
      job.tapes ≠ [] ∧ ¬ job.ValidGap ∧ gap = job.gap := by
  constructor
  · intro h
    have hne : job.tapes ≠ [] := by
      intro hnil
      rw [resolve_of_tapes_eq_nil hnil] at h
      cases h
    have hgap : ¬ job.ValidGap := by
      intro hgap
      obtain ⟨_, _, _, hentry⟩ := eq_entry_of_resolve_eq_error hgap hne h
      cases hentry
    rw [resolve_of_error? (error?_of_not_validGap hgap hne)] at h
    cases h
    exact ⟨hne, hgap, rfl⟩
  · rintro ⟨hne, hgap, rfl⟩
    exact resolve_of_error? (error?_of_not_validGap hgap hne)

/-- Reading a job from its first entry on: cut behind any number of entries, a job that
resolves does so tape by tape as before. A job that does not is refused for its first
entry that cannot be resolved behind the tapes before it: cut before this entry the job
resolves, and whatever stands behind it, the job is refused for the same reason. A job
without tapes and a job with a gap of no use are refused whatever their entries are. -/
theorem resolve_upTo (job : Job) :
    (job.resolve = .error .empty ↔ job.tapes = []) ∧
    (∀ gap, job.resolve = .error (.invalidGap gap) ↔
      job.tapes ≠ [] ∧ ¬ job.ValidGap ∧ gap = job.gap) ∧
    (job.ValidGap → job.tapes ≠ [] →
      (∀ placed, job.resolve = .ok placed → ∀ k, 1 ≤ k → k ≤ job.tapes.length →
        (job.upTo k).resolve = .ok (placed.take k)) ∧
      ∀ error, job.resolve = .error error →
        ∃ index e cause, job.tapes[index]? = some e ∧ error = .entry index e.label cause ∧
          (∃ placed, Placed job.gap.toMillimetres 0 (job.tapes.take index) placed ∧
            e.resolve (freePlace job.gap.toMillimetres 0 placed) = .error cause) ∧
          (∀ k, 1 ≤ k → k ≤ index → ∃ placed, (job.upTo k).resolve = .ok placed) ∧
          (∀ k, index < k → k ≤ job.tapes.length → (job.upTo k).resolve = .error error) ∧
          ∀ other : Job, other.gap = job.gap →
            other.tapes.take (index + 1) = job.tapes.take (index + 1) →
              other.resolve = .error error) := by
  refine ⟨resolve_eq_empty_iff, fun gap => resolve_eq_invalidGap_iff, fun hgap hne => ⟨?_, ?_⟩⟩
  · intro placed h k hk _
    have hplaced := (resolve_eq_ok_iff.1 h).2
    exact resolve_eq_ok_iff.2 ⟨error?_of_validGap hgap (upTo_ne_nil hne hk), hplaced.take k⟩
  · intro error h
    obtain ⟨before, e, rest, placed, cause, hsplit, hplaced, hbad, rfl⟩ :=
      (resolve_eq_error_iff hgap hne).1 h
    have hbefore : job.tapes.take before.length = before := by
      rw [hsplit, List.take_left]
    -- the part up to the bad entry decides, whatever follows it
    have hother (other : Job) (hsame : other.gap = job.gap)
        (htake : other.tapes.take (before.length + 1) = job.tapes.take (before.length + 1)) :
        other.resolve = .error (.entry before.length e.label cause) := by
      rw [hsplit, List.take_append, List.take_of_length_le (Nat.le_succ _),
        Nat.add_sub_cancel_left, List.take_succ_cons, List.take_zero] at htake
      have hbehind : other.tapes = before ++ e :: other.tapes.drop (before.length + 1) := by
        rw [List.append_cons, ← htake, List.take_append_drop]
      have hvalid : other.ValidGap := by
        rw [ValidGap, hsame]
        exact hgap
      refine (resolve_eq_error_iff hvalid (by rw [hbehind]; simp)).2 ?_
      rw [hsame]
      exact ⟨before, e, _, placed, cause, hbehind, hplaced, hbad, rfl⟩
    refine ⟨before.length, e, cause, ?_, rfl, ⟨placed, ?_, hbad⟩, ?_, ?_, hother⟩
    · rw [hsplit]
      simp
    · rw [hbefore]
      exact hplaced
    · intro k hk hle
      have hcut : (job.upTo k).tapes = before.take k := by
        rw [upTo, hsplit, List.take_append_of_le_length hle]
      refine ⟨placed.take k, resolve_eq_ok_iff.2
        ⟨error?_of_validGap hgap (upTo_ne_nil hne hk), ?_⟩⟩
      rw [hcut]
      exact hplaced.take k
    · intro k hk _
      refine hother (job.upTo k) rfl ?_
      rw [upTo, List.take_take, min_eq_left hk]

def wideTape (width : Binary64) : TapeEntry :=
  { (default : TapeEntry) with
    tapeWidth := some (.millimetres width)
    tapePitch := .millimetres 4
    partHoleOffset := some (.millimetres 3.5)
    partWidth := some (.millimetres 2)
    partHeight := some (.millimetres 1)
    partCount := 1 }

/-- Tapes that are fine by themselves, but too wide to stand side by side. -/
def wideTapes : Job where
  gap := .millimetres 1
  tapes := [wideTape 1e308, wideTape 1e308, wideTape 8]

/-- The second tape ends beyond all numbers because of the first one, and the third one
has no part in it. -/
theorem resolve_upTo_wideTapes :
    wideTapes.ValidGap ∧ ∃ error, wideTapes.resolve = .error error ∧
      (∃ placed, (wideTapes.upTo 1).resolve = .ok placed) ∧
      (wideTapes.upTo 2).resolve = .error error := by
  have hgap : wideTapes.ValidGap := by decide +kernel
  have herror : wideTapes.resolve =
      .error (.entry 1 "unnamed" (.tape (.invalidParameter .tapeWidth .unplaceable))) := by
    decide +kernel
  obtain ⟨-, -, hcut⟩ := resolve_upTo wideTapes
  obtain ⟨-, hrefused⟩ := hcut hgap nofun
  obtain ⟨index, _, _, -, hindex, -, hbefore, hbehind, -⟩ := hrefused _ herror
  obtain ⟨rfl, -⟩ := JobError.entry.inj hindex
  exact ⟨hgap, _, herror, hbefore 1 le_rfl le_rfl, hbehind 2 (by decide) (by decide)⟩

end CarrierTape.Job
