import CarrierTape.Script.Plan

/-!
What the planner adds for one record, and for a run of records that all ask for the
same pen: there only the first record can change the layer or the stroke
(`planFrom_run`).
-/

namespace CarrierTape.Script

def changes (pen : Pen) (r : Record) : List Statement :=
  layerChange pen r.layer ++ widthChange pen r.shape

/-- The statements that the planner adds for one record. -/
def step (pen : Pen) (r : Record) : List Statement :=
  changes pen r ++ [drawn r.shape]

theorem planFrom_cons (pen : Pen) (r : Record) (rest : List Record) :
    planFrom pen (r :: rest) = step pen r ++ planFrom (penAfter pen r) rest := by
  simp [planFrom, step, changes]

/-- A record that the pen can draw as it stands. -/
structure Suits (pen : Pen) (r : Record) : Prop where
  layer : pen.layer = some r.layer
  width : ∀ c, r.shape = .circle c → pen.hasWidth c.width

theorem Suits.changes_eq {pen : Pen} {r : Record} (h : Suits pen r) : changes pen r = [] := by
  have hlayer : layerChange pen r.layer = [] := if_pos h.layer
  rw [changes, hlayer, List.nil_append]
  cases hshape : r.shape with
  | rect _ => rfl
  | circle c => exact if_pos (h.width c hshape)

theorem Suits.penAfter_eq {pen : Pen} {r : Record} (h : Suits pen r) : penAfter pen r = pen := by
  unfold penAfter
  cases hshape : r.shape with
  | rect _ => simp only [← h.layer]
  | circle c => simp only [h.width c hshape, if_true, ← h.layer]

theorem planFrom_suits {pen : Pen} {records : List Record} (h : ∀ r ∈ records, Suits pen r)
    (rest : List Record) :
    planFrom pen (records ++ rest) =
      records.map (fun r => drawn r.shape) ++ planFrom pen rest := by
  induction records with
  | nil => rfl
  | cons r tail ih =>
    obtain ⟨hr, htail⟩ := List.forall_mem_cons.1 h
    rw [List.cons_append, planFrom_cons, step, hr.changes_eq, hr.penAfter_eq, ih htail]
    rfl

/-- In a run of records that all ask for the same pen, the first one makes the
changes for all of them. -/
theorem planFrom_run {pen : Pen} (first : List Statement) (next : Pen) {records : List Record}
    (hne : records ≠ [])
    (h : ∀ r ∈ records, changes pen r = first ∧ penAfter pen r = next ∧ Suits next r)
    (rest : List Record) :
    planFrom pen (records ++ rest) =
      first ++ records.map (fun r => drawn r.shape) ++ planFrom next rest := by
  obtain ⟨r, tail, rfl⟩ := List.exists_cons_of_ne_nil hne
  obtain ⟨⟨hchanges, hafter, -⟩, htail⟩ := List.forall_mem_cons.1 h
  rw [List.cons_append, planFrom_cons, step, hchanges, hafter,
    planFrom_suits fun r hr => (htail r hr).2.2]
  simp

end CarrierTape.Script
