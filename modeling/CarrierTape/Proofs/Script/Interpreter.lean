import CarrierTape.Proofs.Script.Plan
import Mathlib.Data.List.Forall2

/-!
What a script draws. Its reader has one pen, which runs through the whole script
and is never reset, while the planner starts every tape with a pen of its own that
has nothing set. The invariant that relates the two is `Follows`: whatever the
planner believes to be set is set. A pen that follows the planner's draws every
record as it stands (`document_draws_records`).
-/

namespace CarrierTape

/-- What one statement leaves on the drawing, with the layer and the stroke that the
pen had. -/
inductive Mark where
  | rect (layer : Option Layer) (rect : Rect)
  | circle (layer : Option Layer) (centre edge : Point) (width : Option Binary64)
deriving DecidableEq

namespace Script

def obey (pen : Pen) : Statement → Pen
  | .layer id => { pen with layer := some id }
  | .changeWidth w => { pen with width := some w }
  | .grid | .rect _ | .circle .. => pen

def mark? (pen : Pen) : Statement → Option Mark
  | .rect r => some (.rect pen.layer r)
  | .circle centre edge => some (.circle pen.layer centre edge pen.width)
  | .grid | .layer _ | .changeWidth _ => none

def marks (pen : Pen) : List Statement → List Mark
  | [] => []
  | s :: rest => (mark? pen s).toList ++ marks (obey pen s) rest

/-- Arithmetically equal strokes, or both of them NaN. -/
def SameWidth (drawn asked : Binary64) : Prop :=
  drawn.equals asked = true ∨ drawn = .nan ∧ asked = .nan

/-- A mark is the shape of a record on the layer of the record. The second point of
a circle stands its radius to the right of the centre. -/
inductive Shows : Record → Mark → Prop
  | rect (pass : Pass) (layer : Layer) (r : Rect) :
    Shows ⟨pass, layer, .rect r⟩ (.rect (some layer) r)
  | circle (pass : Pass) (layer : Layer) (c : Circle) {w : Binary64} (h : SameWidth w c.width) :
    Shows ⟨pass, layer, .circle c⟩
      (.circle (some layer) c.centre ⟨c.centre.x + c.radius, c.centre.y⟩ (some w))

/-- The reader's pen has everything that the planner's pen has. -/
structure Follows (pen planned : Pen) : Prop where
  layer : ∀ id, planned.layer = some id → pen.layer = some id
  width : ∀ w, planned.width = some w → pen.width = some w

theorem Follows.unset (pen : Pen) : Follows pen .unset :=
  ⟨by simp [Pen.unset], by simp [Pen.unset]⟩

theorem marks_append (pen : Pen) (xs ys : List Statement) :
    marks pen (xs ++ ys) = marks pen xs ++ marks (xs.foldl obey pen) ys := by
  induction xs generalizing pen with
  | nil => rfl
  | cons s rest ih => simp [marks, ih]

theorem sameWidth_refl (w : Binary64) : SameWidth w w := by
  cases w with
  | nan => exact Or.inr ⟨rfl, rfl⟩
  | infinite s => exact Or.inl (by simp [Binary64.equals])
  | finite s m h => exact Or.inl (by simp [Binary64.equals])

theorem foldl_layerChange {pen planned : Pen} (h : Follows pen planned) (id : Layer) :
    (layerChange planned id).foldl obey pen = { pen with layer := some id } := by
  unfold layerChange
  split
  · rw [List.foldl_nil, ← h.layer id ‹_›]
  · rfl

theorem marks_layerChange (pen planned : Pen) (id : Layer) :
    marks pen (layerChange planned id) = [] := by
  unfold layerChange
  split <;> rfl

theorem marks_widthChange (pen planned : Pen) (shape : Shape) :
    marks pen (widthChange planned shape) = [] := by
  unfold widthChange
  split
  · rfl
  · split <;> rfl

/-- After a width change, made or left out, the pen has the circle's width, and the
planner's pen has no other. -/
theorem foldl_widthChange (pen : Pen) {planned : Pen}
    (h : ∀ w, planned.width = some w → pen.width = some w) (c : Circle) :
    ∃ w, SameWidth w c.width ∧
      (widthChange planned (.circle c)).foldl obey pen = { pen with width := some w } ∧
      (if planned.hasWidth c.width then planned.width else some c.width) = some w := by
  unfold widthChange
  by_cases hhas : planned.hasWidth c.width
  · cases hw : planned.width with
    | none => simp [Pen.hasWidth, hw] at hhas
    | some w =>
      have hequal : w.equals c.width = true := by simpa [Pen.hasWidth, hw] using hhas
      refine ⟨w, Or.inl hequal, ?_, ?_⟩
      · simp [hhas, ← h w hw]
      · simp [hhas]
  · refine ⟨c.width, sameWidth_refl c.width, ?_, ?_⟩ <;> simp [hhas, obey]

theorem marks_step (pen planned : Pen) (r : Record) :
    marks pen (step planned r) =
      (mark? ((changes planned r).foldl obey pen) (drawn r.shape)).toList := by
  rw [step, marks_append, changes, marks_append, marks_layerChange, marks_widthChange]
  simp [marks]

/-- One record: the reader's pen draws it, and follows the planner's pen again. -/
theorem step_spec {pen planned : Pen} (h : Follows pen planned) (r : Record) :
    (∃ m, Shows r m ∧ marks pen (step planned r) = [m]) ∧
      Follows ((step planned r).foldl obey pen) (penAfter planned r) := by
  rw [marks_step]
  simp only [step, changes, List.foldl_append, foldl_layerChange h]
  obtain ⟨pass, id, shape⟩ := r
  cases shape with
  | rect rect =>
    refine ⟨⟨_, .rect pass id rect, rfl⟩, ⟨?_, ?_⟩⟩
    · intro l hl
      simpa [penAfter, widthChange, drawn, obey] using hl
    · exact h.width
  | circle c =>
    obtain ⟨w, hsame, hpen, hplanned⟩ :=
      foldl_widthChange { pen with layer := some id } h.width c
    rw [hpen]
    refine ⟨⟨_, .circle pass id c hsame, rfl⟩, ⟨?_, ?_⟩⟩
    · intro l hl
      simpa [penAfter, drawn, obey] using hl
    · intro v hv
      simp only [penAfter, hplanned] at hv
      exact hv

theorem forall₂_marks_planFrom {pen planned : Pen} (h : Follows pen planned)
    (records : List Record) :
    List.Forall₂ Shows records (marks pen (planFrom planned records)) := by
  induction records generalizing pen planned with
  | nil => exact .nil
  | cons r rest ih =>
    obtain ⟨⟨m, hshows, hmarks⟩, hfollows⟩ := step_spec h r
    rw [planFrom_cons, marks_append, hmarks]
    exact .cons hshows (ih hfollows)

/-- Whatever a script finds set, it draws the records of its tapes and nothing else:
each on its layer, in its shape and, for circles, with its stroke. -/
theorem document_draws_records (pen : Pen) (tapes : List (List Record)) :
    List.Forall₂ Shows tapes.flatten (marks pen (document tapes)) := by
  have hplans (pen : Pen) :
      List.Forall₂ Shows tapes.flatten (marks pen (tapes.flatMap plan)) := by
    induction tapes generalizing pen with
    | nil => exact .nil
    | cons records rest ih =>
      rw [List.flatten_cons, List.flatMap_cons, marks_append]
      exact List.rel_append (forall₂_marks_planFrom (.unset pen) records) (ih _)
  exact hplans pen

end Script

end CarrierTape
