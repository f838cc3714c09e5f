import CarrierTape.Proofs.Script.Plan
import CarrierTape.Proofs.Script.Writer

/-!
The lines of a script. Splitting its text gives back the statements, so the lines of one kind
are the statements of that kind: those that draw are the shapes of the records, whatever is
changed between them, and those that change the layer name the layers of records.
-/

namespace CarrierTape

/-- The lines of a text without their ends. Behind the last end there is an empty one. -/
def linesOf (text : String) : List (List Char) :=
  text.toList.splitOn '\n'

def isShapeLine (line : List Char) : Bool :=
  "RECT".toList.isPrefixOf line || "CIRCLE".toList.isPrefixOf line

def shapeLines (script : String) : List (List Char) :=
  (linesOf script).filter isShapeLine

def isLayerLine (line : List Char) : Bool :=
  "LAYER".toList.isPrefixOf line

def layerLines (script : String) : List (List Char) :=
  (linesOf script).filter isLayerLine

namespace Statement

def isShape : Statement → Bool
  | .rect _ | .circle .. => true
  | .grid | .layer _ | .changeWidth _ => false

def isLayer : Statement → Bool
  | .layer _ => true
  | .grid | .changeWidth _ | .rect _ | .circle .. => false

theorem isShapeLine_render (f : NumberFormat) (s : Statement) :
    isShapeLine (s.render f) = s.isShape := by
  cases s <;> rfl

theorem isLayerLine_render (f : NumberFormat) (s : Statement) :
    isLayerLine (s.render f) = s.isLayer := by
  cases s <;> rfl

theorem splitOn_renderAll (f : NumberFormat) (statements : List Statement) :
    (renderAll f statements).splitOn '\n' = statements.map (render f) ++ [[]] := by
  induction statements with
  | nil => rfl
  | cons s rest ih =>
    have hline : renderAll f (s :: rest) = s.render f ++ '\n' :: renderAll f rest := by
      rw [renderAll_cons, line, List.append_assoc, List.singleton_append]
    rw [hline, List.splitOn_append_cons_self_of_not_mem (lineFeed_not_mem_render f s), ih]
    rfl

theorem filter_linesOf_renderAll {isLine : List Char → Bool} {isStatement : Statement → Bool}
    {f : NumberFormat} (hempty : isLine [] = false)
    (hsame : ∀ s : Statement, isLine (s.render f) = isStatement s) (statements : List Statement) :
    (linesOf (String.ofList (renderAll f statements))).filter isLine =
      (statements.filter isStatement).map (render f) := by
  have hcomp : isLine ∘ render f = isStatement := funext hsame
  rw [linesOf, String.toList_ofList, splitOn_renderAll, List.filter_append, List.filter_map, hcomp,
    List.filter_singleton, hempty]
  exact List.append_nil _

theorem shapeLines_renderAll (f : NumberFormat) (statements : List Statement) :
    shapeLines (String.ofList (renderAll f statements)) =
      (statements.filter isShape).map (render f) :=
  filter_linesOf_renderAll rfl (isShapeLine_render f) statements

theorem layerLines_renderAll (f : NumberFormat) (statements : List Statement) :
    layerLines (String.ofList (renderAll f statements)) =
      (statements.filter isLayer).map (render f) :=
  filter_linesOf_renderAll rfl (isLayerLine_render f) statements

end Statement

namespace Script

open Statement

theorem filter_isShape_changes (pen : Pen) (r : Record) : (changes pen r).filter isShape = [] := by
  rw [List.filter_eq_nil_iff]
  intro s hs
  rcases List.mem_append.1 hs with hlayer | hwidth
  · rw [layerChange] at hlayer
    split_ifs at hlayer
    · simp at hlayer
    · rw [List.mem_singleton.1 hlayer]
      exact Bool.false_ne_true
  · cases hshape : r.shape with
    | rect _ => simp [widthChange, hshape] at hwidth
    | circle c =>
      simp only [widthChange, hshape] at hwidth
      split_ifs at hwidth
      · simp at hwidth
      · rw [List.mem_singleton.1 hwidth]
        exact Bool.false_ne_true

/-- Besides its shapes a plan has only changes of the pen. -/
theorem filter_isShape_planFrom (pen : Pen) (records : List Record) :
    (planFrom pen records).filter isShape = records.map fun r => drawn r.shape := by
  induction records generalizing pen with
  | nil => rfl
  | cons r rest ih =>
    have hdrawn : [drawn r.shape].filter isShape = [drawn r.shape] := by
      cases r.shape <;> rfl
    rw [planFrom_cons, step, List.filter_append, List.filter_append, filter_isShape_changes, hdrawn,
      ih]
    rfl

theorem shapeLines_render (f : NumberFormat) (tapes : List (List Record)) :
    shapeLines (render f tapes) = tapes.flatten.map fun r => (drawn r.shape).render f := by
  have hplans : (document tapes).filter isShape = tapes.flatten.map fun r => drawn r.shape := by
    have hgrid : (document tapes).filter isShape = (tapes.flatMap plan).filter isShape := rfl
    rw [hgrid, List.filter_flatMap, List.map_flatten]
    exact congrArg List.flatten (List.map_congr_left fun records _ =>
      filter_isShape_planFrom .unset records)
  rw [render_eq, shapeLines_renderAll, hplans, List.map_map]
  rfl

theorem exists_of_layer_mem_planFrom {pen : Pen} {records : List Record} {id : Layer}
    (h : .layer id ∈ planFrom pen records) : ∃ r ∈ records, r.layer = id := by
  induction records generalizing pen with
  | nil => simp [planFrom] at h
  | cons r rest ih =>
    rw [planFrom_cons, List.mem_append, step, List.mem_append, changes, List.mem_append] at h
    rcases h with ((hlayer | hwidth) | hdrawn) | hrest
    · rw [layerChange] at hlayer
      split_ifs at hlayer
      · simp at hlayer
      · exact ⟨r, List.mem_cons_self, by simpa using (List.mem_singleton.1 hlayer).symm⟩
    · cases hshape : r.shape <;> simp [widthChange, hshape] at hwidth
    · cases hshape : r.shape <;> simp [drawn, hshape] at hdrawn
    · obtain ⟨found, hmem, hid⟩ := ih hrest
      exact ⟨found, List.mem_cons_of_mem r hmem, hid⟩

theorem exists_of_mem_layerLines {f : NumberFormat} {tapes : List (List Record)}
    {line : List Char} (h : line ∈ layerLines (render f tapes)) :
    ∃ records ∈ tapes, ∃ r ∈ records, line = (Statement.layer r.layer).render f := by
  rw [render_eq, layerLines_renderAll, List.mem_map] at h
  obtain ⟨s, hs, rfl⟩ := h
  obtain ⟨hmem, hlayer⟩ := List.mem_filter.1 hs
  cases s with
  | layer id =>
    obtain ⟨records, htape, hplan⟩ : ∃ records ∈ tapes, .layer id ∈ plan records := by
      simpa [document] using hmem
    obtain ⟨r, hr, rfl⟩ := exists_of_layer_mem_planFrom hplan
    exact ⟨records, htape, r, hr, rfl⟩
  | grid => simp [isLayer] at hlayer
  | changeWidth w => simp [isLayer] at hlayer
  | rect r => simp [isLayer] at hlayer
  | circle c e => simp [isLayer] at hlayer

end Script

end CarrierTape
