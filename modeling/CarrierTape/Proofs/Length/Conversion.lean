import CarrierTape.Length.Basic
import CarrierTape.Proofs.Binary64.Relative

/-!
Chains of conversions. Some factors of the units are themselves rounded, but a length that
leaves millimetres by a quotient comes back by the product with the same factor, whatever that
is. So a conversion costs two roundings, one to the unit it already has costs none, and a chain
of any length keeps the millimetres up to two roundings for each of its steps
(`foldl_convert_within`).
-/

namespace CarrierTape

open Binary64

theorem LengthUnit.factor_pos (units : LengthUnit) :
    units.factor.isFinite ∧ 0 < units.factor.units := by
  cases units <;> decide +kernel

namespace Length

theorem convert_self (l : Length) : l.convert l.units = l :=
  if_pos rfl

/-- One conversion. The value before it need not be normal. -/
theorem convert_within (l : Length) (units : LengthUnit) (hstart : l.toMillimetres.isNormal)
    (hvalue : (l.convert units).value.isNormal)
    (hstop : (l.convert units).toMillimetres.isNormal) :
    WithinRoundings 2 l.toMillimetres.toRat (l.convert units).toMillimetres.toRat := by
  by_cases hsame : l.units = units
  · rw [← hsame, convert_self]
    exact .refl 2 _
  · have hconvert : l.convert units = ⟨l.toMillimetres / units.factor, units⟩ := if_neg hsame
    rw [hconvert] at hvalue hstop ⊢
    obtain ⟨hfactor, hpos⟩ := units.factor_pos
    exact within_mul_div hfactor hpos hstart hvalue hstop

theorem foldl_convert_within (units : List LengthUnit) :
    ∀ l : Length, (∀ step ∈ (units.scanl convert l).tail, step.value.isNormal) →
      (∀ step ∈ units.scanl convert l, step.toMillimetres.isNormal) →
        WithinRoundings (2 * units.length) l.toMillimetres.toRat
          (units.foldl convert l).toMillimetres.toRat := by
  induction units with
  | nil => exact fun l _ _ => .refl 0 _
  | cons first rest ih =>
    intro l hvalues hmillimetres
    rw [List.scanl_cons, List.tail_cons] at hvalues
    rw [List.scanl_cons, List.forall_mem_cons] at hmillimetres
    obtain ⟨hstart, hmillimetres⟩ := hmillimetres
    have hnext : l.convert first ∈ rest.scanl convert (l.convert first) := by
      cases rest <;> simp
    have hstep := convert_within l first hstart (hvalues _ hnext) (hmillimetres _ hnext)
    have hchain := ih (l.convert first) (fun step hmem => hvalues step (List.mem_of_mem_tail hmem))
      hmillimetres
    rw [List.foldl_cons, List.length_cons, Nat.mul_succ, Nat.add_comm]
    exact hstep.trans hchain

/-- As long as a chain of conversions stays in the normal numbers, its end is its start up to
two roundings for each step, on either side of zero. Steps to a unit that the length already has
can be left out. -/
theorem convert_chain_drift (l : Length) (units : List LengthUnit)
    (hvalues : ∀ step ∈ (units.scanl convert l).tail, step.value.isNormal)
    (hmillimetres : ∀ step ∈ units.scanl convert l, step.toMillimetres.isNormal) :
    let start := l.toMillimetres.toRat
    let stop := (units.foldl convert l).toMillimetres.toRat
    let roundings := 2 * units.length
    (0 < start → start * (1 - 1 / 2 ^ 53) ^ roundings ≤ stop ∧
      stop ≤ start * (1 + 1 / 2 ^ 53) ^ roundings) ∧
    (start < 0 → start * (1 + 1 / 2 ^ 53) ^ roundings ≤ stop ∧
      stop ≤ start * (1 - 1 / 2 ^ 53) ^ roundings) ∧
    ∀ before after, (before ++ (before.foldl convert l).units :: after).foldl convert l =
      (before ++ after).foldl convert l := by
  have hwithin := foldl_convert_within units l hvalues hmillimetres
  refine ⟨hwithin.bounds_of_pos, hwithin.bounds_of_neg, fun before after => ?_⟩
  rw [List.foldl_append, List.foldl_append, List.foldl_cons, convert_self]

/-- A tenth of a foot grows on its way through all units, with a stop, and back. -/
theorem convert_chain_drift_foot :
    let l : Length := ⟨0.1, .foot⟩
    let units : List LengthUnit := [.inch, .inch, .mil, .metre, .millimetre, .centimetre, .foot]
    let start := l.toMillimetres.toRat
    let stop := (units.foldl convert l).toMillimetres.toRat
    0 < start ∧ start < stop ∧ start * (1 - 1 / 2 ^ 53) ^ 14 ≤ stop ∧
      stop ≤ start * (1 + 1 / 2 ^ 53) ^ 14 := by
  intro l units
  have hvalues : ∀ step ∈ (units.scanl convert l).tail, step.value.isNormal := by decide +kernel
  have hmillimetres : ∀ step ∈ units.scanl convert l, step.toMillimetres.isNormal := by
    decide +kernel
  obtain ⟨hpositive, -, -⟩ := convert_chain_drift l units hvalues hmillimetres
  have hstart : 0 < l.toMillimetres.toRat := by decide +kernel
  exact ⟨hstart, by decide +kernel, hpositive hstart⟩

end Length

end CarrierTape
