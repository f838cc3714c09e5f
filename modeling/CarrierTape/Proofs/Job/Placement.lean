import CarrierTape.Job.Basic
import CarrierTape.Proofs.Except
import CarrierTape.Proofs.Tape.Validity
import Mathlib.Data.List.Forall2

/-!
The tapes of a job in their places. `Placed` says without errors and indices what
placing does: every entry is resolved at the place that the tape before it leaves
free. Whatever has been resolved is valid, so the drawing of a job cannot fail once
all of its tapes are placed.
-/

namespace CarrierTape

namespace TapeEntry

/-- The tape of an entry, with what is not simply taken from the entry given beside it. -/
def assembled (e : TapeEntry) (x tapeWidth partHoleOffset : Binary64)
    (partWidth partHeight : Length) (partCount : Nat) : TapeSpec where
  originX := e.originX.elim x Length.toMillimetres
  originY := e.originY.elim 0 Length.toMillimetres
  tapeWidth := tapeWidth
  tapePitch := e.tapePitch.toMillimetres
  holeEdgeDistance := e.holeEdgeDistance.elim Standard.holeEdgeDistance Length.toMillimetres
  holeDiameter := e.holeDiameter.elim Standard.holeDiameter Length.toMillimetres
  partHoleOffset := partHoleOffset
  partWidth := partWidth.toMillimetres
  partHeight := partHeight.toMillimetres
  partCount := partCount

theorem resolve_eq_ok_iff {e : TapeEntry} {x : Binary64} {s : TapeSpec} :
    e.resolve x = .ok s ↔
      ∃ width offset, e.widthAndOffset = .ok (width, offset) ∧ ∃ chip, e.chip = .ok chip ∧
      ∃ partWidth, required .partWidth e.partWidth (chip.map (·.length)) = .ok partWidth ∧
      ∃ partHeight, required .partHeight e.partHeight (chip.map (·.width)) = .ok partHeight ∧
      ∃ n, partCountOf e.partCount = .ok n ∧
        s.Valid ∧ s = e.assembled x width offset partWidth partHeight n := by
  simp only [resolve, bind_eq_ok_iff, mapError_eq_ok_iff, TapeSpec.validate_eq_ok_iff, Prod.exists]
  constructor
  · rintro ⟨width, offset, hwidth, chip, hchip, w, hw, h, hh, n, hn, hvalid, rfl⟩
    exact ⟨width, offset, hwidth, chip, hchip, w, hw, h, hh, n, hn, hvalid, rfl⟩
  · rintro ⟨width, offset, hwidth, chip, hchip, w, hw, h, hh, n, hn, hvalid, rfl⟩
    exact ⟨width, offset, hwidth, chip, hchip, w, hw, h, hh, n, hn, hvalid, rfl⟩

/-- The width of the tape is looked at first, so its error hides all others. -/
theorem resolve_of_widthAndOffset {e : TapeEntry} {error : EntryError}
    (h : e.widthAndOffset = .error error) (x : Binary64) : e.resolve x = .error error := by
  simp only [resolve, h, error_bind]

theorem valid_of_resolve {e : TapeEntry} {x : Binary64} {s : TapeSpec} (h : e.resolve x = .ok s) :
    s.Valid := by
  obtain ⟨-, -, -, -, -, -, -, -, -, -, -, hvalid, -⟩ := resolve_eq_ok_iff.1 h
  exact hvalid

theorem originX_of_resolve {e : TapeEntry} {x : Binary64} {s : TapeSpec} (h : e.resolve x = .ok s) :
    s.originX = e.originX.elim x Length.toMillimetres := by
  obtain ⟨-, -, -, -, -, -, -, -, -, -, -, -, rfl⟩ := resolve_eq_ok_iff.1 h
  rfl

theorem resolveAt_eq_ok_iff {e : TapeEntry} {index : Nat} {x : Binary64} {s : TapeSpec} :
    e.resolveAt index x = .ok s ↔ e.resolve x = .ok s :=
  mapError_eq_ok_iff

theorem resolveAt_of_error {e : TapeEntry} {x : Binary64} {cause : EntryError}
    (h : e.resolve x = .error cause) (index : Nat) :
    e.resolveAt index x = .error (.entry index e.label cause) := by
  rw [resolveAt, h, mapError_error]

end TapeEntry

namespace Job

/-- The tapes of all entries, the first of them placed at `x` unless it has a place
of its own. -/
inductive Placed (gap : Binary64) : Binary64 → List TapeEntry → List PlacedTape → Prop
  | nil (x : Binary64) : Placed gap x [] []
  | cons {x : Binary64} {e : TapeEntry} {s : TapeSpec} {rest : List TapeEntry}
    {placed : List PlacedTape} (hentry : e.resolve x = .ok s)
    (hrest : Placed gap (nextOrigin gap s) rest placed) :
    Placed gap x (e :: rest) (⟨e.label, s⟩ :: placed)

/-- Where a tape behind those placed from `x` on starts, if it has no place of its own. -/
def freePlace (gap x : Binary64) : List PlacedTape → Binary64
  | [] => x
  | t :: rest => freePlace gap (nextOrigin gap t.spec) rest

theorem Placed.valid {gap x : Binary64} {entries : List TapeEntry} {placed : List PlacedTape}
    (h : Placed gap x entries placed) : ∀ t ∈ placed, t.spec.Valid := by
  induction h with
  | nil x => simp
  | cons hentry _ ih => exact List.forall_mem_cons.2 ⟨TapeEntry.valid_of_resolve hentry, ih⟩

theorem Placed.forall₂ {gap x : Binary64} {entries : List TapeEntry} {placed : List PlacedTape}
    (h : Placed gap x entries placed) :
    List.Forall₂ (fun e t => t.name = e.label ∧ ∃ x, e.resolve x = .ok t.spec) entries placed := by
  induction h with
  | nil x => exact .nil
  | cons hentry _ ih => exact .cons ⟨rfl, _, hentry⟩ ih

theorem Placed.length_eq {gap x : Binary64} {entries : List TapeEntry} {placed : List PlacedTape}
    (h : Placed gap x entries placed) : placed.length = entries.length :=
  h.forall₂.length_eq.symm

theorem Placed.unique {gap x : Binary64} {entries : List TapeEntry} {placed other : List PlacedTape}
    (h : Placed gap x entries placed) (hother : Placed gap x entries other) : other = placed := by
  induction h generalizing other with
  | nil x =>
    cases hother
    rfl
  | @cons x e s rest placed hentry _ ih =>
    rcases hother with _ | ⟨hentry', hrest'⟩
    rw [hentry, Except.ok.injEq] at hentry'
    subst hentry'
    rw [ih hrest']

theorem Placed.take {gap x : Binary64} {entries : List TapeEntry} {placed : List PlacedTape}
    (h : Placed gap x entries placed) (k : Nat) :
    Placed gap x (entries.take k) (placed.take k) := by
  induction h generalizing k with
  | nil x =>
    rw [List.take_nil, List.take_nil]
    exact .nil x
  | cons hentry _ ih =>
    cases k with
    | zero => exact .nil _
    | succ k => exact .cons hentry (ih k)

theorem Placed.drop {gap x : Binary64} {entries : List TapeEntry} {placed : List PlacedTape}
    (h : Placed gap x entries placed) (k : Nat) :
    Placed gap (freePlace gap x (placed.take k)) (entries.drop k) (placed.drop k) := by
  induction h generalizing k with
  | nil x =>
    rw [List.drop_nil, List.drop_nil]
    exact .nil _
  | cons hentry hrest ih =>
    cases k with
    | zero => exact .cons hentry hrest
    | succ k => exact ih k

/-- One step: behind an entry that can be placed, placing goes on at the place that it leaves
free. -/
theorem placeFrom_of_resolve {gap x : Binary64} {e : TapeEntry} {s : TapeSpec}
    (h : e.resolve x = .ok s) (index : Nat) (rest : List TapeEntry) :
    placeFrom gap x index (e :: rest) =
      (⟨e.label, s⟩ :: (placeFrom gap (nextOrigin gap s) (index + 1) rest).1,
        (placeFrom gap (nextOrigin gap s) (index + 1) rest).2) := by
  rw [placeFrom, TapeEntry.resolveAt_eq_ok_iff.2 h]

theorem placeFrom_of_error {gap x : Binary64} {e : TapeEntry} {cause : EntryError}
    (h : e.resolve x = .error cause) (index : Nat) (rest : List TapeEntry) :
    placeFrom gap x index (e :: rest) = ([], some (.entry index e.label cause)) := by
  rw [placeFrom, TapeEntry.resolveAt_of_error h]

theorem placeFrom_eq_iff {gap : Binary64} {entries : List TapeEntry} {placed : List PlacedTape} :
    ∀ {x : Binary64} (index : Nat),
      placeFrom gap x index entries = (placed, none) ↔ Placed gap x entries placed := by
  induction entries generalizing placed with
  | nil =>
    intro x index
    rw [placeFrom]
    constructor
    · rintro ⟨⟩
      exact .nil x
    · rintro ⟨⟩
      rfl
  | cons e rest ih =>
    intro x index
    cases hentry : e.resolve x with
    | error error =>
      rw [placeFrom_of_error hentry]
      refine iff_of_false nofun ?_
      rintro (_ | ⟨hresolved, _⟩)
      rw [hentry] at hresolved
      cases hresolved
    | ok s =>
      rw [placeFrom_of_resolve hentry, Prod.mk.injEq]
      constructor
      · rintro ⟨rfl, hnone⟩
        exact .cons hentry ((ih _).1 (Prod.ext rfl hnone))
      · rintro (_ | ⟨hresolved, hrest⟩)
        rw [hentry] at hresolved
        cases hresolved
        rw [(ih _).2 hrest]
        exact ⟨rfl, rfl⟩

theorem error?_eq_none_iff {job : Job} :
    job.error? = none ↔
      job.tapes ≠ [] ∧ job.gap.toMillimetres.isFinite ∧ ¬ job.gap.toMillimetres < 0 := by
  by_cases hempty : job.tapes = []
  · simp [error?, hempty]
  · by_cases hgap : job.gap.toMillimetres.isFinite <;> simp [error?, hempty, hgap]

theorem resolve_eq_ok_iff {job : Job} {placed : List PlacedTape} :
    job.resolve = .ok placed ↔
      job.error? = none ∧ Placed job.gap.toMillimetres 0 job.tapes placed := by
  unfold resolve place
  cases herror : job.error? with
  | some error => exact iff_of_false nofun (by simp)
  | none =>
    rcases hplaced : placeFrom job.gap.toMillimetres 0 0 job.tapes with ⟨tapes, _ | error⟩
    · rw [← placeFrom_eq_iff 0, hplaced]
      simp
    · rw [← placeFrom_eq_iff 0, hplaced]
      simp

theorem drawFrom_of_valid {layers : LayerMap} {placed : List PlacedTape}
    (h : ∀ t ∈ placed, t.spec.Valid) (index : Nat) :
    drawFrom layers index placed = .ok (placed.map (·.spec.records layers)) := by
  induction placed generalizing index with
  | nil => rfl
  | cons t rest ih =>
    obtain ⟨hvalid, hrest⟩ := List.forall_mem_cons.1 h
    rw [drawFrom, TapeSpec.draw_eq_ok_iff.2 ⟨hvalid, rfl⟩, ih hrest]
    rfl

theorem layout_eq_ok_iff {layers : LayerMap} {job : Job} {tapes : List (List Record)} :
    job.layout layers = .ok tapes ↔
      ∃ placed, job.resolve = .ok placed ∧ tapes = placed.map (·.spec.records layers) := by
  unfold layout
  cases hplaced : job.resolve with
  | error error => exact iff_of_false nofun (by simp)
  | ok placed =>
    have hvalid := (resolve_eq_ok_iff.1 hplaced).2.valid
    change drawFrom layers 0 placed = .ok tapes ↔ _
    simp [drawFrom_of_valid hvalid, eq_comm]

end Job

end CarrierTape
