import CarrierTape.Proofs.Job.LeftToRight

/-!
How far a change of a job reaches. Two jobs are compared tape by tape, and all that one
tape hands to the next is the place that it leaves free. So tapes of the same entry
differ at most in where they start (`Placed.sameButOriginX`), and not at all if the entry
has a place of its own, nor behind such an entry, where both jobs go on from the same
place (`Placed.drop_unique`).
-/

namespace CarrierTape

/-- The same tape with the same name, which may start elsewhere across the drawing. -/
def PlacedTape.SameButOriginX (s t : PlacedTape) : Prop :=
  t = { s with spec := { s.spec with originX := t.spec.originX } }

namespace TapeEntry

/-- Where an entry is resolved matters only for where its tape starts. -/
theorem resolve_eq_of_resolve {e : TapeEntry} {x y : Binary64} {s t : TapeSpec}
    (hs : e.resolve x = .ok s) (ht : e.resolve y = .ok t) :
    t = { s with originX := t.originX } := by
  obtain ⟨width, offset, hwidth, chip, hchip, w, hw, h, hh, n, hn, -, rfl⟩ :=
    resolve_eq_ok_iff.1 hs
  obtain ⟨width', offset', hwidth', chip', hchip', w', hw', h', hh', n', hn', -, rfl⟩ :=
    resolve_eq_ok_iff.1 ht
  cases hwidth.symm.trans hwidth'
  cases hchip.symm.trans hchip'
  cases hw.symm.trans hw'
  cases hh.symm.trans hh'
  cases hn.symm.trans hn'
  rfl

theorem resolve_eq_of_explicit {e : TapeEntry} (h : e.originX ≠ none) (x y : Binary64) :
    e.resolve x = e.resolve y := by
  obtain ⟨place, hplace⟩ := Option.ne_none_iff_exists'.1 h
  simp only [resolve, hplace, Option.elim_some]

end TapeEntry

namespace Job

theorem Placed.resolve_at {gap x : Binary64} {entries : List TapeEntry} {placed : List PlacedTape}
    (h : Placed gap x entries placed) {j : Nat} {e : TapeEntry} (he : entries[j]? = some e) :
    ∃ s z, placed[j]? = some ⟨e.label, s⟩ ∧ e.resolve z = .ok s := by
  obtain ⟨hj, rfl⟩ := List.getElem?_eq_some_iff.1 he
  have hj' : j < placed.length := h.length_eq.symm ▸ hj
  obtain ⟨hname, z, hresolve⟩ := h.forall₂.get hj hj'
  rw [List.get_eq_getElem, List.get_eq_getElem] at hname
  refine ⟨placed[j].spec, z, ?_, hresolve⟩
  rw [List.getElem?_eq_getElem hj', ← hname]

section TwoRuns

variable {gap gap' x x' : Binary64} {entries entries' : List TapeEntry}
  {placed placed' : List PlacedTape}

theorem Placed.sameButOriginX (h : Placed gap x entries placed)
    (h' : Placed gap' x' entries' placed') {j : Nat} {e : TapeEntry} (he : entries[j]? = some e)
    (he' : entries'[j]? = some e) :
    ∃ s t, placed[j]? = some s ∧ placed'[j]? = some t ∧ s.SameButOriginX t := by
  obtain ⟨s, z, hs, hspec⟩ := h.resolve_at he
  obtain ⟨t, z', ht, hspec'⟩ := h'.resolve_at he'
  refine ⟨_, _, hs, ht, ?_⟩
  rw [PlacedTape.SameButOriginX, ← TapeEntry.resolve_eq_of_resolve hspec hspec']

theorem Placed.getElem?_eq_of_explicit (h : Placed gap x entries placed)
    (h' : Placed gap' x' entries' placed') {j : Nat} {e : TapeEntry} (he : entries[j]? = some e)
    (he' : entries'[j]? = some e) (hexplicit : e.originX ≠ none) : placed'[j]? = placed[j]? := by
  obtain ⟨s, z, hs, hspec⟩ := h.resolve_at he
  obtain ⟨t, z', ht, hspec'⟩ := h'.resolve_at he'
  rw [TapeEntry.resolve_eq_of_explicit hexplicit z' z, hspec, Except.ok.injEq] at hspec'
  rw [hs, ht, hspec']

theorem Placed.head_eq (h : Placed gap x entries placed) (h' : Placed gap' x entries placed') :
    placed'[0]? = placed[0]? := by
  cases h with
  | nil x =>
    cases h'
    rfl
  | cons hentry _ =>
    rcases h' with _ | ⟨hentry', _⟩
    rw [hentry, Except.ok.injEq] at hentry'
    rw [List.getElem?_cons_zero, List.getElem?_cons_zero, hentry']

theorem Placed.moved {e : TapeEntry} (h : Placed gap x (e :: entries) placed)
    (hexplicit : e.originX ≠ none) (y : Binary64) : Placed gap y (e :: entries) placed := by
  rcases h with _ | ⟨hentry, hrest⟩
  rw [TapeEntry.resolve_eq_of_explicit hexplicit x y] at hentry
  exact .cons hentry hrest

theorem Placed.take_unique (h : Placed gap x entries placed) (h' : Placed gap x entries' placed')
    {k : Nat} (hsame : entries'.take k = entries.take k) : placed'.take k = placed.take k := by
  have hfirst := h'.take k
  rw [hsame] at hfirst
  exact (h.take k).unique hfirst

theorem Placed.drop_unique (h : Placed gap x entries placed) (h' : Placed gap x' entries' placed')
    {k : Nat} (hsame : entries'.drop k = entries.drop k) {e : TapeEntry}
    (he : entries[k]? = some e) (hexplicit : e.originX ≠ none) :
    placed'.drop k = placed.drop k := by
  obtain ⟨hk, rfl⟩ := List.getElem?_eq_some_iff.1 he
  have hlast := h.drop k
  have hlast' := h'.drop k
  rw [hsame] at hlast'
  rw [List.drop_eq_getElem_cons hk] at hlast hlast'
  exact hlast.unique (hlast'.moved hexplicit _)

end TwoRuns

/-- Two jobs with the same gap that differ in one entry at most, both of which resolve:
the tapes before this entry are the same, those behind it differ at most in where they
start, and from the first place given by an entry behind it on they are the same again.
Two jobs that differ in the gap at most: the first tape and those with a place of their
own are the same, and the others differ at most in where they start. -/
theorem resolve_edit_local {a b : Job} {placed placed' : List PlacedTape}
    (ha : a.resolve = .ok placed) (hb : b.resolve = .ok placed') :
    (∀ i, b.gap = a.gap → (∀ j, j ≠ i → b.tapes[j]? = a.tapes[j]?) →
      (∀ j, j < i → placed'[j]? = placed[j]?) ∧
      (∀ j, i < j → j < a.tapes.length →
        ∃ s t, placed[j]? = some s ∧ placed'[j]? = some t ∧ s.SameButOriginX t) ∧
      ∀ (k : Nat) (e : TapeEntry), i < k → a.tapes[k]? = some e → e.originX ≠ none →
        ∀ j, k ≤ j → placed'[j]? = placed[j]?) ∧
    (b.tapes = a.tapes →
      placed'[0]? = placed[0]? ∧
      (∀ (j : Nat) (e : TapeEntry), a.tapes[j]? = some e → e.originX ≠ none →
        placed'[j]? = placed[j]?) ∧
      ∀ j, j < a.tapes.length →
        ∃ s t, placed[j]? = some s ∧ placed'[j]? = some t ∧ s.SameButOriginX t) := by
  have hplaced := (resolve_eq_ok_iff.1 ha).2
  have hplaced' := (resolve_eq_ok_iff.1 hb).2
  constructor
  · intro i hgap hedit
    rw [hgap] at hplaced'
    refine ⟨fun j hj => ?_, fun j hij hj => ?_, fun k e hik he hexplicit j hkj => ?_⟩
    · have hsame : b.tapes.take i = a.tapes.take i := by
        refine List.ext_getElem? fun l => ?_
        rw [List.getElem?_take, List.getElem?_take]
        split_ifs with hl
        · exact hedit l (by omega)
        · rfl
      have hfirst := congrArg (·[j]?) (hplaced.take_unique hplaced' hsame)
      rwa [List.getElem?_take_of_lt hj, List.getElem?_take_of_lt hj] at hfirst
    · have he := List.getElem?_eq_getElem hj
      exact hplaced.sameButOriginX hplaced' he ((hedit j (by omega)).trans he)
    · have hsame : b.tapes.drop k = a.tapes.drop k := by
        refine List.ext_getElem? fun l => ?_
        rw [List.getElem?_drop, List.getElem?_drop, hedit _ (by omega)]
      have hlast := congrArg (·[j - k]?) (hplaced.drop_unique hplaced' hsame he hexplicit)
      rwa [List.getElem?_drop, List.getElem?_drop, Nat.add_sub_cancel' hkj] at hlast
  · intro htapes
    rw [htapes] at hplaced'
    refine ⟨?_, fun j e he hexplicit => ?_, fun j hj => ?_⟩
    · exact hplaced.head_eq hplaced'
    · exact hplaced.getElem?_eq_of_explicit hplaced' he he hexplicit
    · have he := List.getElem?_eq_getElem hj
      exact hplaced.sameButOriginX hplaced' he he

/-- Of four tapes the third one has a place of its own. Whether the first one gets wider
or the gap does, the third one stays, and of a wider first one the last tape sees nothing. -/
theorem resolve_edit_local_four :
    let job := fourTapes (some (.millimetres 100))
    ∃ placed wider apart : List PlacedTape,
      job.resolve = .ok placed ∧
      ({ job with tapes := job.tapes.set 0 (chipTape 16 4 "0805") } : Job).resolve = .ok wider ∧
      ({ job with gap := .millimetres 3 } : Job).resolve = .ok apart ∧
      (∃ s t, placed[1]? = some s ∧ wider[1]? = some t ∧ s.SameButOriginX t) ∧
      wider[3]? = placed[3]? ∧ apart[2]? = placed[2]? := by
  intro job
  obtain ⟨placed, hplaced⟩ : ∃ placed, job.resolve = .ok placed :=
    exists_eq_ok_of_isSome (by decide +kernel)
  obtain ⟨wider, hwider⟩ :
      ∃ placed, ({ job with tapes := job.tapes.set 0 (chipTape 16 4 "0805") } : Job).resolve =
        .ok placed := exists_eq_ok_of_isSome (by decide +kernel)
  obtain ⟨apart, hapart⟩ :
      ∃ placed, ({ job with gap := .millimetres 3 } : Job).resolve = .ok placed :=
    exists_eq_ok_of_isSome (by decide +kernel)
  refine ⟨placed, wider, apart, hplaced, hwider, hapart, ?_⟩
  have hedit (j : Nat) (hj : j ≠ 0) :
      (job.tapes.set 0 (chipTape 16 4 "0805"))[j]? = job.tapes[j]? :=
    List.getElem?_set_ne hj.symm
  obtain ⟨-, hbehind, hfrom⟩ := (resolve_edit_local hplaced hwider).1 0 rfl hedit
  obtain ⟨-, hexplicit, -⟩ := (resolve_edit_local hplaced hapart).2 rfl
  exact ⟨hbehind 1 (by decide) (by decide), hfrom 2 _ (by decide) rfl nofun 3 (by decide),
    hexplicit 2 _ rfl nofun⟩

end Job

end CarrierTape
