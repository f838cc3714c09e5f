import CarrierTape.Proofs.Job.Placement
import CarrierTape.Proofs.Tape.Ordered

/-!
Tapes without a place of their own stand left to right. Where a tape ends and where
the next one starts are the same sum up to the gap, so one step never goes back, and
widths that are not negative carry this over any run of such tapes.
-/

namespace CarrierTape

open Binary64 Decimal

/-- A point lies inside both rectangles, on the edge of neither. -/
def Rect.Overlap (a b : Rect) : Prop :=
  ∃ p : Point, (a.min.x < p.x ∧ p.x < a.max.x ∧ a.min.y < p.y ∧ p.y < a.max.y) ∧
    b.min.x < p.x ∧ p.x < b.max.x ∧ b.min.y < p.y ∧ p.y < b.max.y

theorem Rect.not_overlap_of_le {a b : Rect} (h : a.max.x ≤ b.min.x) : ¬ a.Overlap b := by
  rintro ⟨p, ⟨-, hleft, -⟩, hright, -⟩
  rw [lt_iff] at hleft hright
  rw [le_iff] at h
  omega

namespace Job

theorem Placed.first {gap x : Binary64} {entries : List TapeEntry} {placed : List PlacedTape}
    (h : Placed gap x entries placed) {t : PlacedTape} {e : TapeEntry} (ht : placed[0]? = some t)
    (he : entries[0]? = some e) (hauto : e.originX = none) : t.spec.originX = x := by
  cases h with
  | nil => simp at ht
  | cons hentry _ =>
    simp only [List.getElem?_cons_zero, Option.some.injEq] at ht he
    subst ht he
    rw [TapeEntry.originX_of_resolve hentry, hauto]
    rfl

theorem Placed.next {gap x : Binary64} {entries : List TapeEntry} {placed : List PlacedTape}
    (h : Placed gap x entries placed) : ∀ {i : Nat} {s t : PlacedTape} {e : TapeEntry},
      placed[i]? = some s → placed[i + 1]? = some t → entries[i + 1]? = some e →
        e.originX = none → t.spec.originX = nextOrigin gap s.spec := by
  induction h with
  | nil => simp
  | cons _ hrest ih =>
    intro i s t e hs ht he hauto
    rw [List.getElem?_cons_succ] at ht he
    cases i with
    | zero =>
      rw [List.getElem?_cons_zero, Option.some.injEq] at hs
      subst hs
      exact hrest.first ht he hauto
    | succ i =>
      rw [List.getElem?_cons_succ] at hs
      exact ih hs ht he hauto

/-- The outline of the tape with this index: the rectangle that its drawing starts with. -/
def outlineAt (tapes : List (List Record)) (index : Nat) : Option Rect :=
  tapes[index]?.bind fun records => records.head?.bind Record.rect?

theorem outlineAt_map (layers : LayerMap) (placed : List PlacedTape) (index : Nat) :
    outlineAt (placed.map (·.spec.records layers)) index =
      placed[index]?.map (·.spec.outline) := by
  rw [outlineAt, List.getElem?_map]
  cases placed[index]? with
  | none => rfl
  | some t => rfl

theorem outline_le_of_next {gap : Binary64} (hgap : 0 ≤ gap) {s t : TapeSpec} (hs : s.Valid)
    (h : t.originX = nextOrigin gap s) : s.outline.max.x ≤ t.outline.min.x := by
  have hnext : t.outline.min.x = s.outline.max.x + gap := h
  rw [hnext]
  exact Binary64.le_add_of_nonneg hs.isFinite_outline_max.1 hgap

/-- Any number of steps to the right, over tapes that have no place of their own. -/
theorem Placed.outline_le {gap x : Binary64} {entries : List TapeEntry} {placed : List PlacedTape}
    (h : Placed gap x entries placed) (hgap : 0 ≤ gap) {i : Nat} {s : PlacedTape}
    (hs : placed[i]? = some s) {j : Nat} (hij : i + 1 ≤ j) :
    ∀ {t : PlacedTape}, placed[j]? = some t →
      (∀ k, i < k → k ≤ j → ∀ e, entries[k]? = some e → e.originX = none) →
        s.spec.outline.max.x ≤ t.spec.outline.min.x := by
  have hvalid := h.valid
  have hstep (k : Nat) {s t : PlacedTape} (hs : placed[k]? = some s) (ht : placed[k + 1]? = some t)
      (hauto : ∀ e, entries[k + 1]? = some e → e.originX = none) :
      s.spec.outline.max.x ≤ t.spec.outline.min.x := by
    obtain ⟨hk, -⟩ := List.getElem?_eq_some_iff.1 ht
    have hentry := List.getElem?_eq_getElem (h.length_eq ▸ hk)
    exact outline_le_of_next hgap (hvalid s (List.mem_of_getElem? hs))
      (h.next hs ht hentry (hauto _ hentry))
  induction j, hij using Nat.le_induction with
  | base =>
    intro t ht hauto
    exact hstep i hs ht (hauto (i + 1) (Nat.lt_succ_self i) le_rfl)
  | succ j hij ih =>
    intro t ht hauto
    obtain ⟨hlt, -⟩ := List.getElem?_eq_some_iff.1 ht
    -- the tape before the last one is reached by the induction, and its width is not negative
    obtain ⟨r, hr⟩ : ∃ r, placed[j]? = some r := ⟨_, List.getElem?_eq_getElem (by omega)⟩
    have hbefore := ih hr fun k hik hkj => hauto k hik (by omega)
    have hwidth := (hvalid r (List.mem_of_getElem? hr)).outline_min_le_max
    have hlast := hstep j hr ht (hauto (j + 1) (by omega) le_rfl)
    exact Binary64.le_trans hbefore (Binary64.le_trans hwidth hlast)

/-- Of two tapes, if none from behind the first one up to the second has a place of its
own, the first ends where the second starts or before, also as it is written. Next to
each other they stand a gap apart. Where no tape has a place of its own, they fill the
drawing from zero to the right without overlapping. -/
theorem outlines_left_to_right {layers : LayerMap} {job : Job} {tapes : List (List Record)}
    (h : job.layout layers = .ok tapes) :
    (∀ i j, i < j → j < job.tapes.length →
      (∀ k, i < k → k ≤ j → ∀ e, job.tapes[k]? = some e → e.originX = none) →
        ∃ a b, outlineAt tapes i = some a ∧ outlineAt tapes j = some b ∧ a.max.x ≤ b.min.x ∧
          (∀ f : NumberFormat, AtMost (f.format a.max.x) (f.format b.min.x)) ∧
          (j = i + 1 → b.min.x = a.max.x + job.gap.toMillimetres)) ∧
    ((∀ e ∈ job.tapes, e.originX = none) →
      (∃ a, outlineAt tapes 0 = some a ∧ a.min.x = 0) ∧
      ∀ i j, i < j → j < job.tapes.length →
        ∃ a b, outlineAt tapes i = some a ∧ outlineAt tapes j = some b ∧
          a.min.x ≤ a.max.x ∧ a.max.x ≤ b.min.x ∧ b.min.x ≤ b.max.x ∧ ¬ a.Overlap b) := by
  obtain ⟨placed, hresolve, rfl⟩ := layout_eq_ok_iff.1 h
  obtain ⟨herror, hplaced⟩ := resolve_eq_ok_iff.1 hresolve
  obtain ⟨hne, hfinite, hneg⟩ := error?_eq_none_iff.1 herror
  have hgap : 0 ≤ job.gap.toMillimetres := (not_lt_zero_iff hfinite).1 hneg
  have hvalid := hplaced.valid
  have hlength := hplaced.length_eq
  have hget {k : Nat} (hk : k < job.tapes.length) : ∃ t, placed[k]? = some t :=
    ⟨_, List.getElem?_eq_getElem (hlength ▸ hk)⟩
  have houtline {k : Nat} {t : PlacedTape} (ht : placed[k]? = some t) :
      outlineAt (placed.map (·.spec.records layers)) k = some t.spec.outline := by
    rw [outlineAt_map, ht, Option.map_some]
  constructor
  · intro i j hij hj hauto
    obtain ⟨s, hs⟩ := hget (hij.trans hj)
    obtain ⟨t, ht⟩ := hget hj
    have hle := hplaced.outline_le hgap hs hij ht hauto
    have hfinites := (hvalid s (List.mem_of_getElem? hs)).isFinite_outline_max.1
    have hfinitet := (TapeSpec.valid_iff.1 (hvalid t (List.mem_of_getElem? ht))).1.originX
    refine ⟨_, _, houtline hs, houtline ht, hle, fun f => f.atMost_format hfinites hfinitet hle, ?_⟩
    rintro rfl
    have hentry := List.getElem?_eq_getElem hj
    exact hplaced.next hs ht hentry (hauto (i + 1) hij le_rfl _ hentry)
  · intro hauto
    have hnone (k : Nat) (e : TapeEntry) (he : job.tapes[k]? = some e) : e.originX = none :=
      hauto e (List.mem_of_getElem? he)
    constructor
    · have hpos := List.length_pos_iff.2 hne
      obtain ⟨t, ht⟩ := hget hpos
      have hentry := List.getElem?_eq_getElem hpos
      exact ⟨_, houtline ht, hplaced.first ht hentry (hnone 0 _ hentry)⟩
    · intro i j hij hj
      obtain ⟨s, hs⟩ := hget (hij.trans hj)
      obtain ⟨t, ht⟩ := hget hj
      have hle := hplaced.outline_le hgap hs hij ht fun k _ _ => hnone k
      have hwidths := (hvalid s (List.mem_of_getElem? hs)).outline_min_le_max
      have hwidtht := (hvalid t (List.mem_of_getElem? ht)).outline_min_le_max
      exact ⟨_, _, houtline hs, houtline ht, hwidths, hle, hwidtht, Rect.not_overlap_of_le hle⟩

theorem exists_layout_of_isSome {layers : LayerMap} {job : Job}
    (h : job.resolve.toOption.isSome) : ∃ tapes, job.layout layers = .ok tapes := by
  obtain ⟨placed, hresolve⟩ := exists_eq_ok_of_isSome h
  exact ⟨_, layout_eq_ok_iff.2 ⟨placed, hresolve, rfl⟩⟩

def chipTape (width pitch : Binary64) (code : String) : TapeEntry :=
  { (default : TapeEntry) with
    tapeWidth := some (.millimetres width)
    tapePitch := .millimetres pitch
    part := some code
    partCount := 1 }

def fourTapes (third : Option Length) : Job where
  gap := .millimetres 1
  tapes := [chipTape 8 4 "0805", chipTape 12 8 "1206",
    { chipTape 8 4 "0402" with originX := third }, chipTape 8 2 "0201"]

/-- The last tape follows the third one, wherever that stands. -/
theorem outlines_left_to_right_four :
    (∃ tapes, (fourTapes (some (.millimetres 100))).layout .standard = .ok tapes ∧
      ∃ a b, outlineAt tapes 2 = some a ∧ outlineAt tapes 3 = some b ∧
        b.min.x = a.max.x + (fourTapes (some (.millimetres 100))).gap.toMillimetres) ∧
    ∃ tapes, (fourTapes none).layout .standard = .ok tapes ∧
      ∃ a b, outlineAt tapes 0 = some a ∧ outlineAt tapes 3 = some b ∧ ¬ a.Overlap b := by
  obtain ⟨placed, hplaced⟩ : ∃ tapes, (fourTapes (some (.millimetres 100))).layout .standard =
      .ok tapes := exists_layout_of_isSome (by decide +kernel)
  obtain ⟨row, hrow⟩ : ∃ tapes, (fourTapes none).layout .standard = .ok tapes :=
    exists_layout_of_isSome (by decide +kernel)
  refine ⟨⟨placed, hplaced, ?_⟩, row, hrow, ?_⟩
  · have hauto : ∀ k, 2 < k → k ≤ 3 → ∀ e,
        (fourTapes (some (.millimetres 100))).tapes[k]? = some e → e.originX = none := by
      intro k hlow hhigh e he
      obtain rfl : k = 3 := by omega
      cases he
      rfl
    obtain ⟨a, b, ha, hb, -, -, hgap⟩ :=
      (outlines_left_to_right hplaced).1 2 3 (by decide) (by decide) hauto
    exact ⟨a, b, ha, hb, hgap rfl⟩
  · have hauto : ∀ e ∈ (fourTapes none).tapes, e.originX = none := by
      decide
    obtain ⟨a, b, ha, hb, -, -, -, hoverlap⟩ :=
      ((outlines_left_to_right hrow).2 hauto).2 0 3 (by decide) (by decide)
    exact ⟨a, b, ha, hb, hoverlap⟩

end Job

end CarrierTape
