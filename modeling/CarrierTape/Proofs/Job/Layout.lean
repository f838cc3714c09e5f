import CarrierTape.Config.Basic
import CarrierTape.Proofs.Job.Placement

/-!
A job is accepted once, when its tapes are placed. Drawing the placed tapes checks each
of them again and can no longer fail, so a job's layout has the errors of its placement
and no others.
-/

namespace CarrierTape

namespace Job

theorem layout_eq_error_iff {layers : LayerMap} {job : Job} {error : JobError} :
    job.layout layers = .error error ↔ job.resolve = .error error := by
  cases hresolve : job.resolve with
  | error e =>
    have hlayout : job.layout layers = .error e := by
      rw [layout, hresolve]
      rfl
    rw [hlayout, Except.error.injEq, Except.error.injEq]
  | ok placed =>
    rw [layout_eq_ok_iff.2 ⟨placed, hresolve, rfl⟩]
    exact iff_of_false nofun nofun

/-- Laying out a job fails exactly if its tapes cannot be placed, and with the same error.
Whatever an entry resolves to is valid again, wherever it is placed, so placed tapes are
always drawn, and no tape has too many records. A job that is laid out has one list of
records for each tape in order: an outline, and a hole and a part for every pocket. -/
theorem layout_fails_with_resolve (config : Config) (job : Job) :
    (∀ error, job.layout config.layers = .error error ↔ job.resolve = .error error) ∧
    (∀ (e : TapeEntry) (x : Binary64) (s : TapeSpec), e.resolve x = .ok s → s.validate = .ok s) ∧
    (∀ placed, job.resolve = .ok placed → ∀ t ∈ placed,
      t.spec.validate = .ok t.spec ∧
        ∀ error, t.spec.draw config.layers ≠ .error error) ∧
    (∀ (s : TapeSpec) (layers : LayerMap) (parameter : Parameter),
      s.draw layers ≠ .error (.invalidParameter parameter .tooManyRecords)) ∧
    ∀ tapes, job.layout config.layers = .ok tapes →
      ∃ placed, job.resolve = .ok placed ∧
        List.Forall₂ (fun e t => t.name = e.label ∧ ∃ x, e.resolve x = .ok t.spec)
          job.tapes placed ∧
        List.Forall₂ (fun t records => t.spec.draw config.layers = .ok records ∧
          records.length = 1 + 2 * t.spec.partCount) placed tapes := by
  have hresolve (placed : List PlacedTape) (h : job.resolve = .ok placed) :
      ∀ t ∈ placed, t.spec.Valid :=
    (resolve_eq_ok_iff.1 h).2.valid
  refine ⟨fun error => layout_eq_error_iff, fun e x s h => ?_, fun placed h t ht => ?_,
    fun s layers parameter h => ?_, fun tapes h => ?_⟩
  · exact TapeSpec.validate_eq_ok_iff.2 ⟨TapeEntry.valid_of_resolve h, rfl⟩
  · have hvalid := hresolve placed h t ht
    refine ⟨TapeSpec.validate_eq_ok_iff.2 ⟨hvalid, rfl⟩, fun error => ?_⟩
    rw [TapeSpec.draw_eq_ok_iff.2 ⟨hvalid, rfl⟩]
    exact nofun
  · exact s.error?_ne_tooManyRecords parameter
      (TapeSpec.validate_eq_error_iff.1 (TapeSpec.draw_eq_error_iff.1 h))
  · obtain ⟨placed, hplaced, rfl⟩ := layout_eq_ok_iff.1 h
    refine ⟨placed, hplaced, (resolve_eq_ok_iff.1 hplaced).2.forall₂, ?_⟩
    rw [List.forall₂_map_right_iff, List.forall₂_same]
    intro t ht
    exact ⟨TapeSpec.draw_eq_ok_iff.2 ⟨hresolve placed hplaced t ht, rfl⟩,
      t.spec.length_records config.layers⟩

end Job

end CarrierTape
