import CarrierTape.Proofs.Job.FirstError
import CarrierTape.Proofs.Tape.CountFromNumber

/-!
Entries that leave nothing open. Every tape can be written as an entry in millimetres with a
place of its own, and the entry of a valid tape resolves to that tape, wherever it stands
(`resolve_ofSpec`): numbers are not changed by a factor of one, and counts within the limit
come back from the numbers nearest to them. So it does not matter how a tape was found the
first time, and a job whose entries are all written out has the same tapes under any gap.
-/

namespace CarrierTape

theorem Length.toMillimetres_millimetres (v : Binary64) : (millimetres v).toMillimetres = v :=
  Binary64.mul_one v

namespace TapeEntry

theorem resolve_of_parts {e : TapeEntry} {width offset : Binary64} {chip : Option Standard.ChipSize}
    {partWidth partHeight : Length} {n : Nat} (hwidth : e.widthAndOffset = .ok (width, offset))
    (hchip : e.chip = .ok chip)
    (hpartWidth : required .partWidth e.partWidth (chip.map (·.length)) = .ok partWidth)
    (hpartHeight : required .partHeight e.partHeight (chip.map (·.width)) = .ok partHeight)
    (hcount : partCountOf e.partCount = .ok n) (x : Binary64) :
    e.resolve x =
      (e.assembled x width offset partWidth partHeight n).validate.mapError .tape := by
  simp only [resolve, hwidth, hchip, ok_bind, hpartWidth, hpartHeight, hcount, mapError_ok]
  rfl

/-- A tape written out: every length in millimetres, a place of its own and no chip code. -/
def ofSpec (name : Option String) (s : TapeSpec) : TapeEntry where
  name := name
  originX := some (.millimetres s.originX)
  originY := some (.millimetres s.originY)
  tapeWidth := some (.millimetres s.tapeWidth)
  tapePitch := .millimetres s.tapePitch
  holeEdgeDistance := some (.millimetres s.holeEdgeDistance)
  holeDiameter := some (.millimetres s.holeDiameter)
  partHoleOffset := some (.millimetres s.partHoleOffset)
  part := none
  partWidth := some (.millimetres s.partWidth)
  partHeight := some (.millimetres s.partHeight)
  partCount := .ofNat s.partCount

theorem assembled_ofSpec (name : Option String) (s : TapeSpec) (x : Binary64) :
    (ofSpec name s).assembled x s.tapeWidth s.partHoleOffset (.millimetres s.partWidth)
      (.millimetres s.partHeight) s.partCount = s := by
  simp only [assembled, ofSpec, Option.elim_some, Length.toMillimetres_millimetres]

theorem widthAndOffset_ofSpec (name : Option String) (s : TapeSpec) :
    (ofSpec name s).widthAndOffset = .ok (s.tapeWidth, s.partHoleOffset) := by
  simp only [widthAndOffset, ofSpec, Length.toMillimetres_millimetres]

theorem resolve_ofSpec (name : Option String) {s : TapeSpec} (hs : s.Valid) (x : Binary64) :
    (ofSpec name s).resolve x = .ok s := by
  have hcount : partCountOf (ofSpec name s).partCount = .ok s.partCount := by
    simp only [ofSpec, partCountOf_ofNat (TapeSpec.valid_iff.1 hs).1.partCount]
  have hchip : (ofSpec name s).chip = .ok none := rfl
  rw [resolve_of_parts (widthAndOffset_ofSpec name s) hchip rfl rfl hcount, assembled_ofSpec,
    TapeSpec.validate_eq_ok_iff.2 ⟨hs, rfl⟩, mapError_ok]

end TapeEntry

namespace Job

/-- Entries that write out these tapes, under names of their own. -/
def WrittenOut (entries : List TapeEntry) (placed : List PlacedTape) : Prop :=
  List.Forall₂ (fun e t => e = TapeEntry.ofSpec e.name t.spec) entries placed

theorem WrittenOut.placed {entries : List TapeEntry} {placed : List PlacedTape}
    (h : WrittenOut entries placed) (hvalid : ∀ t ∈ placed, t.spec.Valid) (gap x : Binary64) :
    ∃ again, Placed gap x entries again ∧ again.map (·.spec) = placed.map (·.spec) ∧
      again.map (·.name) = entries.map (·.label) := by
  induction h generalizing x with
  | nil => exact ⟨[], .nil x, rfl, rfl⟩
  | @cons e t entries placed hentry _ ih =>
    obtain ⟨ht, hrest⟩ := List.forall_mem_cons.1 hvalid
    have hresolve : e.resolve x = .ok t.spec := by
      rw [hentry]
      exact TapeEntry.resolve_ofSpec e.name ht x
    obtain ⟨again, hagain, hspecs, hnames⟩ := ih hrest (nextOrigin gap t.spec)
    refine ⟨⟨e.label, t.spec⟩ :: again, .cons hresolve hagain, ?_, ?_⟩
    · rw [List.map_cons, List.map_cons, hspecs]
    · rw [List.map_cons, List.map_cons, hnames]

/-- Resolving again changes nothing. Whatever an entry leaves open and in whatever units it is
given: the tape that it resolves to, written out, resolves to the same tape at every index and
at every place. And a job that writes out all tapes of a job that resolves has the same tapes
in the same places, whatever its gap is. -/
theorem resolve_writtenOut :
    (∀ (e : TapeEntry) (index : Nat) (x : Binary64) (s : TapeSpec), e.resolveAt index x = .ok s →
      ∀ (name : Option String) (other : Nat) (y : Binary64),
        (TapeEntry.ofSpec name s).resolveAt other y = .ok s) ∧
    ∀ (job : Job) (placed : List PlacedTape), job.resolve = .ok placed →
      ∀ explicit : Job, explicit.ValidGap → WrittenOut explicit.tapes placed →
        ∃ again, explicit.resolve = .ok again ∧ again.map (·.spec) = placed.map (·.spec) ∧
          again.map (·.name) = explicit.tapes.map (·.label) := by
  constructor
  · intro e index x s h name other y
    have hs := TapeEntry.valid_of_resolve (TapeEntry.resolveAt_eq_ok_iff.1 h)
    exact TapeEntry.resolveAt_eq_ok_iff.2 (TapeEntry.resolve_ofSpec name hs y)
  · intro job placed h explicit hgap hwritten
    obtain ⟨herror, hplaced⟩ := resolve_eq_ok_iff.1 h
    obtain ⟨again, hagain, hspecs, hnames⟩ :=
      hwritten.placed hplaced.valid explicit.gap.toMillimetres 0
    have hne : explicit.tapes ≠ [] := by
      intro hnil
      have hlength := hwritten.length_eq
      rw [hplaced.length_eq, hnil, List.length_nil] at hlength
      exact (error?_eq_none_iff.1 herror).1 (List.length_eq_zero_iff.1 hlength.symm)
    exact ⟨again, resolve_eq_ok_iff.2 ⟨error?_of_validGap hgap hne, hagain⟩, hspecs, hnames⟩

def openEntry : TapeEntry :=
  { (default : TapeEntry) with
    originY := some (.millimetres (-0))
    tapePitch := ⟨157.5, .mil⟩
    partHoleOffset := some (.inches 0.138)
    part := some " 0805 "
    partCount := 3 }

/-- The second tape is placed behind the first one, and once it is written out it stays there. -/
theorem resolve_writtenOut_open :
    (∃ s, openEntry.resolveAt 1 2.5 = .ok s ∧
      (TapeEntry.ofSpec none s).resolveAt 0 (-7) = .ok s) ∧
    ∃ placed,
      ({ gap := .inches 0.1, tapes := [openEntry, openEntry] } : Job).resolve = .ok placed ∧
      ∃ again,
        ({ gap := .millimetres 40
           tapes := placed.map fun t => .ofSpec none t.spec } : Job).resolve = .ok again ∧
        again.map (·.spec) = placed.map (·.spec) := by
  obtain ⟨s, hs⟩ : ∃ s, openEntry.resolveAt 1 2.5 = .ok s :=
    exists_eq_ok_of_isSome (by decide +kernel)
  obtain ⟨placed, hplaced⟩ : ∃ placed,
      ({ gap := .inches 0.1, tapes := [openEntry, openEntry] } : Job).resolve = .ok placed :=
    exists_eq_ok_of_isSome (by decide +kernel)
  have hwritten : WrittenOut (placed.map fun t => TapeEntry.ofSpec none t.spec) placed := by
    rw [WrittenOut, List.forall₂_map_left_iff, List.forall₂_same]
    exact fun t _ => rfl
  have hgap : (Length.millimetres 40).toMillimetres.isFinite ∧
      ¬ (Length.millimetres 40).toMillimetres < 0 := by
    decide +kernel
  obtain ⟨hentry, hjob⟩ := resolve_writtenOut
  obtain ⟨again, hagain, hspecs, -⟩ := hjob _ placed hplaced
    { gap := .millimetres 40, tapes := placed.map fun t => .ofSpec none t.spec } hgap hwritten
  exact ⟨⟨s, hs, hentry _ _ _ s hs none 0 (-7)⟩, placed, hplaced, again, hagain, hspecs⟩

end Job

end CarrierTape
