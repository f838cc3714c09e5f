import CarrierTape.Proofs.Binary64.Arithmetic
import CarrierTape.Proofs.Script.Plan
import CarrierTape.Tape.Drawing

/-!
The statements of a tape. Each of its passes is a run of records that ask for the
same pen, so the changes between them follow from the three layers alone.
-/

namespace CarrierTape.TapeSpec

open Script

def holeStatements (s : TapeSpec) : List Statement :=
  (List.range s.partCount).map fun i => .circle (s.hole i).centre (s.hole i).edge

def partStatements (s : TapeSpec) : List Statement :=
  (List.range s.partCount).map fun i => .rect (s.part i)

def layerSwitch (before after : Layer) : List Statement :=
  if after = before then [] else [.layer after]

theorem layerChange_some (before after : Layer) (width : Option Binary64) :
    layerChange ⟨some before, width⟩ after = layerSwitch before after := by
  simp only [layerChange, layerSwitch, Option.some.injEq, eq_comm]

theorem equals_zero : (0 : Binary64).equals 0 := by
  simp [Binary64.zero_eq, Binary64.zero, Binary64.equals]

/-- Holes have no stroke, so the first one sets the width to zero. -/
theorem planFrom_holes (layers : LayerMap) (s : TapeSpec) (h : s.partCount ≠ 0) (before : Layer)
    (rest : List Record) :
    planFrom ⟨some before, none⟩ ((List.range s.partCount).map (s.holeRecord layers) ++ rest) =
      layerSwitch before layers.holes ++ .changeWidth 0 :: s.holeStatements ++
        planFrom ⟨some layers.holes, some 0⟩ rest := by
  rw [planFrom_run (layerSwitch before layers.holes ++ [.changeWidth 0])
    ⟨some layers.holes, some 0⟩ (by simpa using h), List.map_map]
  · simp [holeStatements, Function.comp_def, holeRecord, drawn]
  · rw [List.forall_mem_map]
    intro i _
    refine ⟨?_, rfl, rfl, ?_⟩
    · rw [changes, holeRecord, layerChange_some]
      rfl
    · intro c hc
      simp only [holeRecord, Shape.circle.injEq] at hc
      rw [← hc, Pen.hasWidth, Option.any_some]
      exact equals_zero

theorem planFrom_parts (layers : LayerMap) (s : TapeSpec) (h : s.partCount ≠ 0) (before : Layer)
    (width : Option Binary64) :
    planFrom ⟨some before, width⟩ ((List.range s.partCount).map (s.partRecord layers)) =
      layerSwitch before layers.partLayer ++ s.partStatements := by
  rw [← List.append_nil (List.map _ _),
    planFrom_run (layerSwitch before layers.partLayer) ⟨some layers.partLayer, width⟩
      (by simpa using h), List.map_map]
  · simp [partStatements, Function.comp_def, partRecord, drawn, planFrom]
  · rw [List.forall_mem_map]
    intro i _
    refine ⟨?_, rfl, rfl, by simp [partRecord]⟩
    rw [changes, partRecord, layerChange_some]
    exact List.append_nil _

/-- The statements of a tape. Without pockets there is nothing but its outline. -/
theorem plan_records (layers : LayerMap) (s : TapeSpec) :
    plan (s.records layers) =
      [.layer layers.tapeBody, .rect s.outline] ++
        if s.partCount = 0 then []
        else layerSwitch layers.tapeBody layers.holes ++ .changeWidth 0 :: s.holeStatements ++
          (layerSwitch layers.holes layers.partLayer ++ s.partStatements) := by
  have houtline (rest : List Record) : plan (s.outlineRecord layers :: rest) =
      [.layer layers.tapeBody, .rect s.outline] ++
        planFrom ⟨some layers.tapeBody, none⟩ rest := rfl
  rw [records, houtline]
  congr 1
  split_ifs with h
  · simp [h, planFrom]
  · rw [planFrom_holes layers s h, planFrom_parts layers s h]

end CarrierTape.TapeSpec
