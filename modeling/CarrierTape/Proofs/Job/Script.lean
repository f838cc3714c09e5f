import CarrierTape.Config.Basic
import CarrierTape.Proofs.Decimal.Fixed
import CarrierTape.Proofs.Job.Placement
import CarrierTape.Proofs.Script.Writer
import CarrierTape.Proofs.Tape.Statements

/-!
The whole script of a job, line by line. `Lines` writes down which lines the tapes of
a job stand for, with nothing remembered from one tape to the next, and the script
is exactly those lines.
-/

namespace CarrierTape

namespace Lines

def number (f : NumberFormat) (x : Binary64) : String :=
  String.ofList (f.format x)

def point (f : NumberFormat) (x y : Binary64) : String :=
  "(" ++ number f x ++ " " ++ number f y ++ ")"

def layer (id : Layer) : String :=
  "LAYER " ++ id.toNat.repr ++ ";\n"

def rect (f : NumberFormat) (x₁ y₁ x₂ y₂ : Binary64) : String :=
  "RECT " ++ point f x₁ y₁ ++ " " ++ point f x₂ y₂ ++ ";\n"

def circle (f : NumberFormat) (x y edgeX edgeY : Binary64) : String :=
  "CIRCLE " ++ point f x y ++ " " ++ point f edgeX edgeY ++ ";\n"

def hole (f : NumberFormat) (s : TapeSpec) (index : Nat) : String :=
  let centre := s.holeCentre index
  circle f centre.x centre.y (centre.x + s.holeDiameter / 2) centre.y

def part (f : NumberFormat) (s : TapeSpec) (index : Nat) : String :=
  let centre := s.partCentre index
  rect f (centre.x - s.partHeight / 2) (centre.y - s.partWidth / 2)
    (centre.x + s.partHeight / 2) (centre.y + s.partWidth / 2)

def pockets (layers : LayerMap) (f : NumberFormat) (s : TapeSpec) : List String :=
  let parts := layers.parts.getD layers.holes
  (if layers.holes = layers.tapeBody then [] else [layer layers.holes]) ++
    "CHANGE WIDTH 0;\n" :: (List.range s.partCount).map (hole f s) ++
    (if parts = layers.holes then [] else [layer parts]) ++
    (List.range s.partCount).map (part f s)

def tape (layers : LayerMap) (f : NumberFormat) (s : TapeSpec) : List String :=
  [layer layers.tapeBody,
    rect f s.originX s.originY (s.originX + s.tapeWidth) (s.originY + s.runLength)] ++
  if s.partCount = 0 then [] else pockets layers f s

def script (layers : LayerMap) (f : NumberFormat) (tapes : List TapeSpec) : List String :=
  "GRID mm 1;\n" :: tapes.flatMap (tape layers f)

end Lines

namespace Statement

def text (f : NumberFormat) (s : Statement) : String :=
  String.ofList (s.line f)

theorem text_grid (f : NumberFormat) : text f .grid = "GRID mm 1;\n" := rfl

theorem text_layer (f : NumberFormat) (id : Layer) : text f (.layer id) = Lines.layer id := by
  have hline : line f (.layer id) =
      "LAYER ".toList ++ Nat.toDigits 10 id.toNat ++ [';'] ++ ['\n'] := rfl
  rw [← String.toList_inj, text, hline]
  simp [Lines.layer]

theorem text_changeWidth (f : NumberFormat) : text f (.changeWidth 0) = "CHANGE WIDTH 0;\n" := by
  have hline : line f (.changeWidth 0) =
      "CHANGE WIDTH ".toList ++ f.format 0 ++ [';'] ++ ['\n'] := rfl
  rw [text, hline, NumberFormat.format_zero]
  rfl

theorem toList_point (f : NumberFormat) (p : Point) :
    (Lines.point f p.x p.y).toList = pointText f p := by
  simp [Lines.point, Lines.number, pointText]

theorem text_rect (f : NumberFormat) (r : Rect) :
    text f (.rect r) = Lines.rect f r.min.x r.min.y r.max.x r.max.y := by
  have hline : line f (.rect r) =
      "RECT ".toList ++ pointText f r.min ++ ' ' :: pointText f r.max ++ [';'] ++ ['\n'] := rfl
  rw [← String.toList_inj, text, hline]
  simp [Lines.rect, toList_point]

theorem text_circle (f : NumberFormat) (centre edge : Point) :
    text f (.circle centre edge) = Lines.circle f centre.x centre.y edge.x edge.y := by
  have hline : line f (.circle centre edge) =
      "CIRCLE ".toList ++ pointText f centre ++ ' ' :: pointText f edge ++ [';'] ++ ['\n'] := rfl
  rw [← String.toList_inj, text, hline]
  simp [Lines.circle, toList_point]

theorem ofList_renderAll (f : NumberFormat) (statements : List Statement) :
    String.ofList (renderAll f statements) = String.join (statements.map (text f)) := by
  rw [← String.toList_inj, String.toList_ofList, String.toList_join, List.flatMap_map, renderAll]
  simp only [text, String.toList_ofList]

theorem map_text_layerSwitch (f : NumberFormat) (before after : Layer) :
    (TapeSpec.layerSwitch before after).map (text f) =
      if after = before then [] else [Lines.layer after] := by
  unfold TapeSpec.layerSwitch
  split_ifs
  · rfl
  · rw [List.map_singleton, text_layer]

theorem map_text_holeStatements (f : NumberFormat) (s : TapeSpec) :
    s.holeStatements.map (text f) = (List.range s.partCount).map (Lines.hole f s) := by
  simp only [TapeSpec.holeStatements, List.map_map, Function.comp_def, text_circle]
  rfl

theorem map_text_partStatements (f : NumberFormat) (s : TapeSpec) :
    s.partStatements.map (text f) = (List.range s.partCount).map (Lines.part f s) := by
  simp only [TapeSpec.partStatements, List.map_map, Function.comp_def, text_rect]
  rfl

/-- The planner writes the lines of a tape, whatever layers coincide. -/
theorem map_text_plan (layers : LayerMap) (f : NumberFormat) (s : TapeSpec) :
    (Script.plan (s.records layers)).map (text f) = Lines.tape layers f s := by
  rw [TapeSpec.plan_records, Lines.tape, List.map_append]
  congr 1
  · simp only [List.map_cons, List.map_nil, text_layer, text_rect, TapeSpec.outline]
  · split_ifs
    · rfl
    · simp only [List.map_append, List.map_cons, map_text_layerSwitch, map_text_holeStatements,
        map_text_partStatements, text_changeWidth, Lines.pockets, LayerMap.partLayer,
        List.append_assoc]

end Statement

theorem Script.render_records (layers : LayerMap) (f : NumberFormat) (tapes : List TapeSpec) :
    Script.render f (tapes.map (·.records layers)) =
      String.join (Lines.script layers f tapes) := by
  rw [Script.render_eq, Statement.ofList_renderAll, Script.document, List.map_cons,
    Statement.text_grid, List.map_flatMap, List.flatMap_map]
  simp only [Statement.map_text_plan]
  rfl

/-- A job is rendered if its tapes can be placed, and then the script consists of the
lines of the tapes in their places and of nothing else. -/
theorem Job.render_eq_ok_iff (config : Config) (job : Job) (script : String) :
    job.render config.layers config.numberFormat = .ok script ↔
      ∃ placed, job.resolve = .ok placed ∧
        Placed job.gap.toMillimetres 0 job.tapes placed ∧
        script =
          String.join (Lines.script config.layers config.numberFormat (placed.map (·.spec))) := by
  rw [render]
  constructor
  · intro h
    obtain ⟨tapes, hlayout, rfl⟩ := map_eq_ok_iff.1 h
    obtain ⟨placed, hresolve, rfl⟩ := layout_eq_ok_iff.1 hlayout
    refine ⟨placed, hresolve, (resolve_eq_ok_iff.1 hresolve).2, ?_⟩
    rw [← Script.render_records, List.map_map]
    rfl
  · rintro ⟨placed, hresolve, -, rfl⟩
    rw [layout_eq_ok_iff.2 ⟨placed, hresolve, rfl⟩, ← Script.render_records, List.map_map]
    rfl

end CarrierTape
