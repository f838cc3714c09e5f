import CarrierTape.Proofs.Binary64.Order
import CarrierTape.Proofs.Script.Interpreter

/-!
The planner writes as few statements as the drawing allows. Any other script is read
beside the plan, with a pen of its own. What the planner's pen may still have to change
to catch up with that pen is its debt, at most one layer and one stroke: every change in
the other script adds at most one to it, and every record that the planner draws repays
what it changes (`step_debt_le`). Nobody starts with a debt, so no script is shorter than
the plan (`plan_minimal`).
-/

namespace CarrierTape

namespace Script

/-! ### Debts -/

def sameStroke : Option Binary64 → Option Binary64 → Bool
  | none, none => true
  | some v, some w => v.equals w
  | _, _ => false

def layerDebt (pen planned : Pen) : Nat :=
  if pen.layer = planned.layer then 0 else 1

def widthDebt (pen planned : Pen) : Nat :=
  if sameStroke pen.width planned.width then 0 else 1

/-- How many changes may separate the planner's pen from another one. -/
def debt (pen planned : Pen) : Nat :=
  layerDebt pen planned + widthDebt pen planned

theorem layerDebt_le (pen planned : Pen) : layerDebt pen planned ≤ 1 := by
  unfold layerDebt
  split <;> omega

theorem widthDebt_le (pen planned : Pen) : widthDebt pen planned ≤ 1 := by
  unfold widthDebt
  split <;> omega

/-- A statement changes one thing at most. -/
theorem debt_obey_le (pen planned : Pen) (s : Statement) :
    debt (obey pen s) planned ≤ debt pen planned + 1 := by
  unfold debt
  cases s with
  | layer id =>
    have hlayer := layerDebt_le (obey pen (.layer id)) planned
    have hwidth : widthDebt (obey pen (.layer id)) planned = widthDebt pen planned := rfl
    omega
  | changeWidth w =>
    have hwidth := widthDebt_le (obey pen (.changeWidth w)) planned
    have hlayer : layerDebt (obey pen (.changeWidth w)) planned = layerDebt pen planned := rfl
    omega
  | grid | rect _ | circle _ _ => exact Nat.le_succ _

theorem length_layerChange {pen : Pen} (planned : Pen) {id : Layer} (h : pen.layer = some id) :
    (layerChange planned id).length = layerDebt pen planned := by
  unfold layerChange layerDebt
  by_cases hplanned : planned.layer = some id
  · rw [if_pos hplanned, if_pos (h.trans hplanned.symm)]
    rfl
  · rw [if_neg hplanned, if_neg fun heq => hplanned (heq.symm.trans h)]
    rfl

theorem length_widthChange {pen : Pen} (planned : Pen) {w : Binary64} {c : Circle}
    (hpen : pen.width = some w) (hw : w.equals c.width = true) :
    (widthChange planned (.circle c)).length = widthDebt pen planned := by
  have hsame : planned.hasWidth c.width = sameStroke pen.width planned.width := by
    rw [hpen, Pen.hasWidth]
    cases planned.width with
    | none => rfl
    | some v =>
      rw [Option.any_some, Bool.eq_iff_iff]
      exact ⟨fun h => Binary64.equals_trans hw (Binary64.equals_symm h),
        fun h => Binary64.equals_trans (Binary64.equals_symm h) hw⟩
  simp only [widthChange, widthDebt, hsame]
  split <;> rfl

theorem widthDebt_circle {pen : Pen} (planned : Pen) {w : Binary64} {c : Circle} (pass : Pass)
    (id : Layer) (hpen : pen.width = some w) (hw : w.equals c.width = true) :
    widthDebt pen (penAfter planned ⟨pass, id, .circle c⟩) = 0 := by
  refine if_pos ?_
  simp only [penAfter, hpen]
  by_cases hhas : planned.hasWidth c.width
  · rw [if_pos hhas]
    cases hplanned : planned.width with
    | none => simp [Pen.hasWidth, hplanned] at hhas
    | some v =>
      have hv : v.equals c.width = true := by simpa [Pen.hasWidth, hplanned] using hhas
      exact Binary64.equals_trans hw (Binary64.equals_symm hv)
  · rw [if_neg hhas]
    exact hw

/-! ### The plan beside another script -/

/-- Where another script draws a record, what the planner writes for it is repaid. -/
theorem step_debt_le {pen : Pen} (planned : Pen) {s : Statement} {m : Mark} {r : Record}
    (hmark : mark? pen s = some m) (hshows : Shows r m)
    (hwidth : ∀ c, r.shape = .circle c → c.width ≠ .nan) :
    (step planned r).length + debt pen (penAfter planned r) ≤ 1 + debt pen planned := by
  simp only [step, changes, debt, List.length_append, List.length_singleton]
  cases hshows with
  | rect pass id rect =>
    have hlayer : pen.layer = some id := by
      cases s <;> simp only [mark?, reduceCtorEq, Option.some.injEq, Mark.rect.injEq] at hmark
      exact hmark.1
    have hchange := length_layerChange planned hlayer
    have hkept : layerDebt pen (penAfter planned ⟨pass, id, .rect rect⟩) = 0 := if_pos hlayer
    have hstroke : widthDebt pen (penAfter planned ⟨pass, id, .rect rect⟩) =
        widthDebt pen planned := rfl
    simp only [widthChange, List.length_nil]
    omega
  | @circle pass id c w hsame =>
    obtain ⟨hlayer, hpen⟩ : pen.layer = some id ∧ pen.width = some w := by
      cases s <;> simp only [mark?, reduceCtorEq, Option.some.injEq, Mark.circle.injEq] at hmark
      exact ⟨hmark.1, hmark.2.2.2⟩
    have hw : w.equals c.width = true := hsame.resolve_right fun h => hwidth c rfl h.2
    have hchange := length_layerChange planned hlayer
    have hstroke := length_widthChange planned hpen hw
    have hkept : layerDebt pen (penAfter planned ⟨pass, id, .circle c⟩) = 0 := if_pos hlayer
    have hrepaid := widthDebt_circle planned pass id hpen hw
    simp only
    omega

theorem length_planFrom_le {pen : Pen} (planned : Pen) {records : List Record}
    {other : List Statement}
    (h : List.Forall₂ Shows records (marks pen other))
    (hwidths : ∀ r ∈ records, ∀ c, r.shape = .circle c → c.width ≠ .nan) :
    (planFrom planned records).length ≤ other.length + debt pen planned := by
  induction other generalizing pen planned records with
  | nil =>
    cases h
    exact Nat.zero_le _
  | cons s rest ih =>
    rw [List.length_cons]
    cases hmark : mark? pen s with
    | none =>
      rw [marks, hmark] at h
      have hrest := ih planned h hwidths
      have hdebt := debt_obey_le pen planned s
      omega
    | some m =>
      rw [marks, hmark] at h
      obtain ⟨r, records, hshows, htail, rfl⟩ := List.forall₂_cons_right_iff.1 h
      obtain ⟨hwidth, hwidths⟩ := List.forall_mem_cons.1 hwidths
      -- a statement that leaves a mark leaves the pen as it is
      have hpen : obey pen s = pen := by cases s <;> first | rfl | cases hmark
      rw [hpen] at htail
      have hrest := ih (penAfter planned r) htail hwidths
      have hstep := step_debt_le planned hmark hshows hwidth
      rw [planFrom_cons, List.length_append]
      omega

/-! ### No change is idle -/

/-- Every change sets something that the pen does not have yet. -/
def NoRepeats (pen : Pen) : List Statement → Prop
  | [] => True
  | s :: rest =>
    (∀ id, s = .layer id → pen.layer ≠ some id) ∧
      (∀ w, s = .changeWidth w → pen.hasWidth w = false) ∧ NoRepeats (obey pen s) rest

theorem noRepeats_append {pen : Pen} {xs ys : List Statement} :
    NoRepeats pen (xs ++ ys) ↔ NoRepeats pen xs ∧ NoRepeats (xs.foldl obey pen) ys := by
  induction xs generalizing pen with
  | nil => simp [NoRepeats]
  | cons s rest ih => simp only [List.cons_append, NoRepeats, List.foldl_cons, ih, and_assoc]

theorem foldl_step (pen : Pen) (r : Record) : (step pen r).foldl obey pen = penAfter pen r := by
  have hdrawn (p : Pen) (shape : Shape) : obey p (drawn shape) = p := by cases shape <;> rfl
  have hlayer : (layerChange pen r.layer).foldl obey pen = { pen with layer := some r.layer } :=
    foldl_layerChange ⟨fun _ h => h, fun _ h => h⟩ r.layer
  rw [step, changes, List.foldl_append, List.foldl_append, hlayer, List.foldl_cons,
    List.foldl_nil, hdrawn]
  unfold penAfter widthChange
  cases r.shape with
  | rect _ => rfl
  | circle c =>
    simp only []
    split <;> rfl

theorem noRepeats_step (pen : Pen) (r : Record) : NoRepeats pen (step pen r) := by
  unfold step changes layerChange widthChange
  cases r.shape with
  | rect rect =>
    by_cases hlayer : pen.layer = some r.layer <;> simp [NoRepeats, hlayer, drawn]
  | circle c =>
    by_cases hlayer : pen.layer = some r.layer <;> by_cases hwidth : pen.hasWidth c.width <;>
      simp_all [NoRepeats, drawn, obey, Pen.hasWidth]

theorem noRepeats_planFrom (pen : Pen) (records : List Record) :
    NoRepeats pen (planFrom pen records) := by
  induction records generalizing pen with
  | nil => trivial
  | cons r rest ih =>
    rw [planFrom_cons, noRepeats_append, foldl_step]
    exact ⟨noRepeats_step pen r, ih (penAfter pen r)⟩

/-- The plan draws its records from an unset pen, and no script that draws the same from
there has fewer statements. So no statement of the plan can be left out, and none sets
what is set already. -/
theorem plan_minimal {records : List Record}
    (hwidths : ∀ r ∈ records, ∀ c, r.shape = .circle c → c.width ≠ .nan) :
    List.Forall₂ Shows records (marks .unset (plan records)) ∧
    (∀ other, List.Forall₂ Shows records (marks .unset other) →
      (plan records).length ≤ other.length) ∧
    (∀ front s back, plan records = front ++ s :: back →
      ¬ List.Forall₂ Shows records (marks .unset (front ++ back))) ∧
    NoRepeats .unset (plan records) := by
  have hminimal (other : List Statement)
      (h : List.Forall₂ Shows records (marks .unset other)) :
      (plan records).length ≤ other.length :=
    length_planFrom_le .unset h hwidths
  refine ⟨forall₂_marks_planFrom (.unset .unset) records, hminimal, ?_,
    noRepeats_planFrom .unset records⟩
  intro front s back hplan hshows
  have hlength := hminimal (front ++ back) hshows
  rw [hplan] at hlength
  simp at hlength

/-- A rectangle between two circles, and a stroke of -0 after one of 0, cost no change. -/
theorem plan_minimal_interleaved :
    let records : List Record :=
      [⟨.hole, 1, .circle ⟨default, 2, Binary64.zero false⟩⟩, ⟨.part, 1, .rect default⟩,
        ⟨.hole, 7, .circle ⟨default, 1, Binary64.zero true⟩⟩]
    (∀ r ∈ records, ∀ c, r.shape = .circle c → c.width ≠ .nan) ∧
      (plan records).length = 6 ∧
      ∀ other, List.Forall₂ Shows records (marks .unset other) → 6 ≤ other.length := by
  intro records
  have hwidths : ∀ r ∈ records, ∀ c, r.shape = .circle c → c.width ≠ .nan := by
    simp [records, Binary64.zero]
  have hlength : (plan records).length = 6 := by decide +kernel
  exact ⟨hwidths, hlength, fun other h => hlength ▸ (plan_minimal hwidths).2.1 other h⟩

end Script

end CarrierTape
