import CarrierTape.Proofs.Tape.Shortened
import Mathlib.Data.List.Perm.Subperm

/-!
Which parameter a refused tape is refused for. The checks go through the parameters in the
order of their declaration, and then through coordinates, each of them a sum that was finite
before the parameter that it is put down to came in. So a parameter that is blamed is not zero,
and all before it are sound. Setting it to zero takes it off the list for good: after ten
parameters at most nothing is left to blame (`blame_sound`).
-/

namespace CarrierTape

open Binary64

namespace Parameter

def isLength : Parameter → Bool
  | .originX | .originY | .partCount => false
  | _ => true

def measures : List Parameter :=
  [.originX, .originY, .tapeWidth, .tapePitch, .holeEdgeDistance, .holeDiameter, .partHoleOffset,
    .partWidth, .partHeight]

end Parameter

namespace TapeSpec

variable {s t : TapeSpec} {p F : Parameter} {problem : Problem} {blamed : List Parameter}

/-- The value of a parameter. A count is the number nearest to it. -/
def dimension (s : TapeSpec) : Parameter → Binary64
  | .originX => s.originX
  | .originY => s.originY
  | .tapeWidth => s.tapeWidth
  | .tapePitch => s.tapePitch
  | .holeEdgeDistance => s.holeEdgeDistance
  | .holeDiameter => s.holeDiameter
  | .partHoleOffset => s.partHoleOffset
  | .partWidth => s.partWidth
  | .partHeight => s.partHeight
  | .partCount => .ofNat s.partCount

/-- The tape with a zero, of either sign, for one of its parameters. -/
def zeroed (s : TapeSpec) (negative : Bool) : Parameter → TapeSpec
  | .originX => { s with originX := zero negative }
  | .originY => { s with originY := zero negative }
  | .tapeWidth => { s with tapeWidth := zero negative }
  | .tapePitch => { s with tapePitch := zero negative }
  | .holeEdgeDistance => { s with holeEdgeDistance := zero negative }
  | .holeDiameter => { s with holeDiameter := zero negative }
  | .partHoleOffset => { s with partHoleOffset := zero negative }
  | .partWidth => { s with partWidth := zero negative }
  | .partHeight => { s with partHeight := zero negative }
  | .partCount => { s with partCount := 0 }

theorem isZero_dimension_zeroed (s : TapeSpec) (negative : Bool) (p : Parameter) :
    ((s.zeroed negative p).dimension p).isZero := by
  cases p with
  | partCount => exact isZero_ofNat_iff.2 rfl
  | _ => rfl

theorem dimension_zeroed_of_ne (s : TapeSpec) (negative : Bool) (h : p ≠ F) :
    (s.zeroed negative F).dimension p = s.dimension p := by
  cases F <;> cases p <;> first | exact absurd rfl h | rfl

/-! ### The checks in one list -/

def SoundAt (s : TapeSpec) (p : Parameter) : Prop :=
  (s.dimension p).isFinite ∧ (p.isLength → ¬ s.dimension p < 0)

def problemAt? (s : TapeSpec) (p : Parameter) : Option Problem :=
  if p.isLength then lengthProblem? (s.dimension p) else finiteProblem? (s.dimension p)

theorem problemAt?_eq_none_iff : s.problemAt? p = none ↔ s.SoundAt p := by
  unfold problemAt? SoundAt
  split_ifs with h
  · simp [lengthProblem?_eq_none_iff, h]
  · simp [finiteProblem?_eq_none_iff, h]

theorem soundAt_of_isZero (h : (s.dimension p).isZero) : s.SoundAt p :=
  ⟨isFinite_of_isZero h, fun _ => not_lt_zero_of_isZero h⟩

theorem forall_lengthValues_iff {P : Binary64 → Prop} :
    (∀ v ∈ s.lengthValues, P v) ↔
      ∀ p ∈ Parameter.measures, p.isLength → P (s.dimension p) := by
  have hvalues : s.lengthValues =
      (Parameter.measures.filter Parameter.isLength).map s.dimension := rfl
  rw [hvalues, List.forall_mem_map]
  simp only [List.mem_filter, and_imp]

theorem dimensioned_iff :
    s.Dimensioned ↔ (∀ p ∈ Parameter.measures, s.SoundAt p) ∧ s.partCount ≤ 1000000 := by
  constructor
  · intro h
    have hlengths := forall_lengthValues_iff.1 h.lengths
    refine ⟨fun p hp => ⟨?_, fun hlength => (hlengths p hp hlength).2⟩, h.partCount⟩
    by_cases hlength : p.isLength
    · exact (hlengths p hp hlength).1
    · cases p with
      | originX => exact h.originX
      | originY => exact h.originY
      | partCount => exact absurd hp (by decide)
      | _ => exact absurd rfl hlength
  · rintro ⟨hsound, hcount⟩
    have hlengths := (forall_lengthValues_iff (P := fun v => v.isFinite ∧ ¬ v < 0)).2
      fun p hp hlength => ⟨(hsound p hp).1, (hsound p hp).2 hlength⟩
    exact ⟨(hsound .originX (by decide)).1, (hsound .originY (by decide)).1, hlengths, hcount⟩

/-- The first problem of the parameters by themselves, in the order of their declaration. -/
theorem error?_eq (s : TapeSpec) :
    s.error? = ((Parameter.measures.findSome? fun p =>
        (s.problemAt? p).map (TapeError.invalidParameter p)) <|> s.countError? <|>
      firstProblem? placeProblem? s.extremes) := by
  set find := fun p => (s.problemAt? p).map (TapeError.invalidParameter p) with hfind
  have horigins : firstProblem? finiteProblem? s.origins =
      [.originX, .originY].findSome? find := rfl
  have hlengths : firstProblem? lengthProblem? s.lengths =
      [.tapeWidth, .tapePitch, .holeEdgeDistance, .holeDiameter, .partHoleOffset, .partWidth,
        .partHeight].findSome? find := rfl
  have hmeasures : Parameter.measures = [.originX, .originY] ++ [.tapeWidth, .tapePitch,
      .holeEdgeDistance, .holeDiameter, .partHoleOffset, .partWidth, .partHeight] := rfl
  rw [error?, horigins, hlengths, hmeasures, List.findSome?_append]
  cases [Parameter.originX, .originY].findSome? find <;> rfl

/-- Whoever is blamed is the first: a parameter that is not sound by itself, or the count, or
the parameter of the first coordinate that is not finite. -/
theorem blame_cases (h : s.validate = .error (.invalidParameter F problem)) :
    (∃ before after, Parameter.measures = before ++ F :: after ∧ ¬ s.SoundAt F ∧
      ∀ p ∈ before, s.SoundAt p) ∨
    F = .partCount ∧ 1000000 < s.partCount ∧ (∀ p ∈ Parameter.measures, s.SoundAt p) ∨
    s.Dimensioned ∧
      firstProblem? placeProblem? s.extremes = some (.invalidParameter F problem) := by
  rw [validate_eq_error_iff, error?_eq, Option.orElse_eq_some, Option.orElse_eq_some] at h
  have hnone {p : Parameter} (hp : (s.problemAt? p).map (TapeError.invalidParameter p) = none) :
      s.SoundAt p := problemAt?_eq_none_iff.1 (Option.map_eq_none_iff.1 hp)
  rcases h with hfirst | ⟨hmeasures, hcount | ⟨hcount, hplace⟩⟩
  · left
    obtain ⟨before, p, after, hsplit, hp, hbefore⟩ := List.findSome?_eq_some_iff.1 hfirst
    obtain ⟨problem', hproblem, heq⟩ := Option.map_eq_some_iff.1 hp
    obtain ⟨rfl, rfl⟩ := TapeError.invalidParameter.inj heq
    refine ⟨before, after, hsplit, ?_, fun q hq => hnone (hbefore q hq)⟩
    rw [← problemAt?_eq_none_iff, hproblem]
    exact Option.some_ne_none _
  · right; left
    rw [List.findSome?_eq_none_iff] at hmeasures
    unfold countError? at hcount
    split_ifs at hcount with hmany
    obtain ⟨rfl, -⟩ := TapeError.invalidParameter.inj (Option.some.inj hcount)
    exact ⟨rfl, hmany, fun p hp => hnone (hmeasures p hp)⟩
  · right; right
    rw [List.findSome?_eq_none_iff] at hmeasures
    exact ⟨dimensioned_iff.2 ⟨fun p hp => hnone (hmeasures p hp), countError?_eq_none_iff.1 hcount⟩,
      hplace⟩

theorem soundAt_of_blamed (h : s.validate = .error (.invalidParameter F problem))
    {G : Parameter} (hG : G.ctorIdx < F.ctorIdx) : s.SoundAt G := by
  have hmem : G ∈ Parameter.measures := by
    cases G with
    | partCount => cases F <;> exact absurd hG (by decide)
    | _ => decide
  rcases blame_cases h with ⟨before, after, hsplit, -, hbefore⟩ | ⟨-, -, hall⟩ | ⟨hdim, -⟩
  · have hsorted : (before ++ F :: after).Pairwise (·.ctorIdx < ·.ctorIdx) := by
      rw [← hsplit]
      decide
    rw [hsplit, List.mem_append, List.mem_cons] at hmem
    obtain ⟨-, hbehind, -⟩ := List.pairwise_append.1 hsorted
    rcases hmem with hfront | rfl | hback
    · exact hbefore G hfront
    · exact absurd hG (lt_irrefl _)
    · exact absurd hG ((List.pairwise_cons.1 hbehind).1 G hback).not_gt
  · exact hall G hmem
  · exact (dimensioned_iff.1 hdim).1 G hmem

/-! ### Coordinates -/

theorem firstProblem?_append (check : Binary64 → Option Problem)
    (front back : List (Parameter × Binary64)) :
    firstProblem? check (front ++ back) =
      (firstProblem? check front <|> firstProblem? check back) := by
  simp [firstProblem?, List.findSome?_append]

theorem place_cons_eq_some_iff {G : Parameter} {v : Binary64}
    {rest : List (Parameter × Binary64)} :
    firstProblem? placeProblem? ((G, v) :: rest) = some (.invalidParameter F problem) ↔
      (v.isFinite = false ∧ G = F ∧ problem = .unplaceable) ∨
      v.isFinite ∧ firstProblem? placeProblem? rest = some (.invalidParameter F problem) := by
  cases hv : v.isFinite with
  | true =>
    have hplace : placeProblem? v = none := placeProblem?_eq_none_iff.2 hv
    simp [firstProblem?, hplace]
  | false =>
    have hplace : placeProblem? v = some .unplaceable := by simp [placeProblem?, hv]
    simp [firstProblem?, hplace, eq_comm (a := problem)]

def outerExtremes (s : TapeSpec) : List (Parameter × Binary64) :=
  [(.holeEdgeDistance, (s.holeCentre 0).x),
    (.holeDiameter, (s.holeCentre 0).x + s.holeDiameter / 2),
    (.tapeWidth, s.originX + s.tapeWidth), (.tapePitch, s.originY + s.runLength)]

def partExtremes (s : TapeSpec) (last : Nat) : List (Parameter × Binary64) :=
  [(.partHoleOffset, (s.partCentre 0).x), (.partHeight, (s.partCentre 0).x - s.partHeight / 2),
    (.partHeight, (s.partCentre 0).x + s.partHeight / 2), (.tapePitch, (s.partCentre last).y),
    (.partWidth, (s.partCentre 0).y - s.partWidth / 2),
    (.partWidth, (s.partCentre last).y + s.partWidth / 2)]

theorem extremes_eq (s : TapeSpec) :
    s.extremes = s.outerExtremes ++
      match s.partCount with
      | 0 => []
      | last + 1 => s.partExtremes last := rfl

/-- What is put down to a parameter that is zero is finite, as it was before the parameter came
in. -/
theorem Dimensioned.not_isZero_of_outer (h : s.Dimensioned)
    (hblame : firstProblem? placeProblem? s.outerExtremes = some (.invalidParameter F problem)) :
    (s.dimension F).isZero = false := by
  rw [Bool.eq_false_iff]
  intro hzero
  have hcount := h.partCount
  simp only [outerExtremes, place_cons_eq_some_iff] at hblame
  rcases hblame with ⟨hv, rfl, -⟩ | ⟨hx, hblame⟩
  · exact absurd (isFinite_add_isZero h.originX hzero) (Bool.eq_false_iff.1 hv)
  rcases hblame with ⟨hv, rfl, -⟩ | ⟨-, hblame⟩
  · exact absurd (isFinite_add_isZero hx (isZero_half hzero)) (Bool.eq_false_iff.1 hv)
  rcases hblame with ⟨hv, rfl, -⟩ | ⟨-, hblame⟩
  · exact absurd (isFinite_add_isZero h.originX hzero) (Bool.eq_false_iff.1 hv)
  rcases hblame with ⟨hv, rfl, -⟩ | ⟨-, hblame⟩
  · have hrun : s.runLength.isZero := isZero_mul hzero h.isFinite_intervals
    exact absurd (isFinite_add_isZero h.originY hrun) (Bool.eq_false_iff.1 hv)
  · exact absurd hblame nofun

/-- The first part ends before the last one, and so its own end needs no check before the width
of the part comes in. -/
theorem Dimensioned.not_isZero_of_part (h : s.Dimensioned) {last : Nat}
    (hlast : last ≤ s.partCount) (hx : (s.holeCentre 0).x.isFinite)
    (hblame : firstProblem? placeProblem? (s.partExtremes last) =
      some (.invalidParameter F problem)) :
    (s.dimension F).isZero = false := by
  rw [Bool.eq_false_iff]
  intro hzero
  simp only [partExtremes, place_cons_eq_some_iff] at hblame
  rcases hblame with ⟨hv, rfl, -⟩ | ⟨hcentre, hblame⟩
  · exact absurd (isFinite_add_isZero hx hzero) (Bool.eq_false_iff.1 hv)
  rcases hblame with ⟨hv, rfl, -⟩ | ⟨-, hblame⟩
  · exact absurd (isFinite_sub_isZero hcentre (isZero_half hzero)) (Bool.eq_false_iff.1 hv)
  rcases hblame with ⟨hv, rfl, -⟩ | ⟨-, hblame⟩
  · exact absurd (isFinite_add_isZero hcentre (isZero_half hzero)) (Bool.eq_false_iff.1 hv)
  rcases hblame with ⟨hv, rfl, -⟩ | ⟨hend, hblame⟩
  · have hoffset : (s.pitchOffset last).isZero := isZero_mul hzero (h.isFinite_ofNat hlast)
    exact absurd (isFinite_add_isZero (isFinite_add_isZero h.originY hoffset) hzero)
      (Bool.eq_false_iff.1 hv)
  rcases hblame with ⟨hv, rfl, -⟩ | ⟨-, hblame⟩
  · have hfirst := h.isFinite_partCentre_y (Nat.zero_le last) hlast hend
    exact absurd (isFinite_sub_isZero hfirst (isZero_half hzero)) (Bool.eq_false_iff.1 hv)
  rcases hblame with ⟨hv, rfl, -⟩ | ⟨-, hblame⟩
  · exact absurd (isFinite_add_isZero hend (isZero_half hzero)) (Bool.eq_false_iff.1 hv)
  · exact absurd hblame nofun

theorem Dimensioned.not_isZero_of_extremes (h : s.Dimensioned)
    (hblame : firstProblem? placeProblem? s.extremes = some (.invalidParameter F problem)) :
    (s.dimension F).isZero = false := by
  rw [extremes_eq, firstProblem?_append, Option.orElse_eq_some] at hblame
  rcases hblame with houter | ⟨houter, hpart⟩
  · exact h.not_isZero_of_outer houter
  · have hx : (s.holeCentre 0).x.isFinite :=
      placeProblem?_eq_none_iff.1 (firstProblem?_eq_none_iff.1 houter _ (by simp [outerExtremes]))
    cases hcount : s.partCount with
    | zero =>
      rw [hcount] at hpart
      exact absurd hpart nofun
    | succ last =>
      rw [hcount] at hpart
      exact h.not_isZero_of_part (by omega) hx hpart

theorem not_isZero_of_blamed (h : s.validate = .error (.invalidParameter F problem)) :
    (s.dimension F).isZero = false := by
  rcases blame_cases h with ⟨-, -, -, hunsound, -⟩ | ⟨rfl, hcount, -⟩ | ⟨hdim, hplace⟩
  · rw [Bool.eq_false_iff]
    exact fun hzero => hunsound (soundAt_of_isZero hzero)
  · rw [Bool.eq_false_iff]
    intro hzero
    have hnone := isZero_ofNat_iff.1 hzero
    omega
  · exact hdim.not_isZero_of_extremes hplace

/-! ### Setting blamed parameters to zero -/

/-- From one tape to another by setting to zero, one after the other, the parameters that are
blamed. -/
inductive Zeroing : TapeSpec → List Parameter → TapeSpec → Prop
  | refl (s : TapeSpec) : Zeroing s [] s
  | step {s t : TapeSpec} {F : Parameter} {problem : Problem} {blamed : List Parameter}
    (negative : Bool) (h : s.validate = .error (.invalidParameter F problem))
    (rest : Zeroing (s.zeroed negative F) blamed t) : Zeroing s (F :: blamed) t

theorem Zeroing.isZero_stays (h : Zeroing s blamed t) (hp : (s.dimension p).isZero) :
    p ∉ blamed ∧ (t.dimension p).isZero := by
  induction h with
  | refl s => exact ⟨List.not_mem_nil, hp⟩
  | @step s t F problem blamed negative hblame _ ih =>
    have hne : p ≠ F := by
      rintro rfl
      rw [not_isZero_of_blamed hblame] at hp
      cases hp
    rw [← dimension_zeroed_of_ne s negative hne] at hp
    obtain ⟨hnot, hzero⟩ := ih hp
    exact ⟨by simp [hne, hnot], hzero⟩

theorem Zeroing.isZero_of_mem (h : Zeroing s blamed t) (hp : p ∈ blamed) :
    (t.dimension p).isZero := by
  induction h with
  | refl => exact absurd hp List.not_mem_nil
  | @step s t F problem blamed negative _ hrest ih =>
    rcases List.mem_cons.1 hp with rfl | hmem
    · exact (hrest.isZero_stays (isZero_dimension_zeroed s negative p)).2
    · exact ih hmem

theorem Zeroing.nodup (h : Zeroing s blamed t) : blamed.Nodup := by
  induction h with
  | refl => exact List.nodup_nil
  | @step s t F problem blamed negative _ hrest ih =>
    exact List.nodup_cons.2 ⟨(hrest.isZero_stays (isZero_dimension_zeroed s negative F)).1, ih⟩

theorem Zeroing.length_le (h : Zeroing s blamed t) : blamed.length ≤ 10 := by
  have hall : blamed ⊆ Parameter.partCount :: Parameter.measures := by
    intro p _
    cases p <;> decide
  exact (List.subperm_of_subset h.nodup hall).length_le

theorem Zeroing.snoc (h : Zeroing s blamed t) (negative : Bool)
    (hblame : t.validate = .error (.invalidParameter F problem)) :
    Zeroing s (blamed ++ [F]) (t.zeroed negative F) := by
  induction h with
  | refl s => exact .step negative hblame (.refl _)
  | step sign hfirst _ ih => exact .step sign hfirst (ih hblame)

/-- Only parameters are blamed. -/
theorem valid_or_blamed (s : TapeSpec) :
    s.Valid ∨ ∃ F problem, s.validate = .error (.invalidParameter F problem) := by
  have hfirst {check : Binary64 → Option Problem} {values : List (Parameter × Binary64)}
      {e : TapeError} (h : firstProblem? check values = some e) :
      ∃ F problem, e = .invalidParameter F problem := by
    obtain ⟨pair, -, hpair⟩ := List.exists_of_findSome?_eq_some h
    obtain ⟨problem, -, rfl⟩ := Option.map_eq_some_iff.1 hpair
    exact ⟨_, problem, rfl⟩
  have herror {e : TapeError} (h : s.error? = some e) :
      ∃ F problem, e = .invalidParameter F problem := by
    rw [error?, Option.orElse_eq_some, Option.orElse_eq_some, Option.orElse_eq_some] at h
    rcases h with horigins | ⟨-, hlengths | ⟨-, hcount | ⟨-, hplace⟩⟩⟩
    · exact hfirst horigins
    · exact hfirst hlengths
    · unfold countError? at hcount
      split_ifs at hcount
      exact ⟨_, _, (Option.some.inj hcount).symm⟩
    · exact hfirst hplace
  by_cases hvalid : s.Valid
  · exact .inl hvalid
  · right
    obtain ⟨e, he⟩ := Option.ne_none_iff_exists'.1 hvalid
    obtain ⟨F, problem, rfl⟩ := herror he
    exact ⟨F, problem, validate_eq_error_iff.2 he⟩

/-- Eleven parameters are never blamed, so a run ends, and it ends at a valid tape. -/
theorem exists_zeroing (s : TapeSpec) : ∃ blamed t, Zeroing s blamed t ∧ t.Valid := by
  have hrun : ∀ left blamed t, Zeroing s blamed t → 10 < blamed.length + left →
      ∃ blamed t, Zeroing s blamed t ∧ t.Valid := by
    intro left
    induction left with
    | zero =>
      intro blamed t h hmany
      exact absurd h.length_le (Nat.not_le.2 hmany)
    | succ left ih =>
      intro blamed t h hmany
      rcases t.valid_or_blamed with hvalid | ⟨F, problem, hblame⟩
      · exact ⟨blamed, t, h, hvalid⟩
      · apply ih _ _ (h.snoc false hblame)
        rw [List.length_append, List.length_singleton]
        omega
  exact hrun 11 [] s (.refl s) (by decide)

/-- A tape is refused for a parameter that is not zero, and all that are declared before it are
finite and, if they are lengths, not negative. If blamed parameters are set to zero one after
another, none is blamed twice, and after ten of them at the latest the tape is valid. -/
theorem blame_sound (s : TapeSpec) :
    (∀ F problem, s.validate = .error (.invalidParameter F problem) →
      (s.dimension F).isZero = false ∧
      ∀ G : Parameter, G.ctorIdx < F.ctorIdx →
        (s.dimension G).isFinite ∧ (G.isLength → ¬ s.dimension G < 0)) ∧
    (∀ blamed t, Zeroing s blamed t → blamed.Nodup ∧ blamed.length ≤ 10 ∧
      (t.validate = .ok t ∨
        ∃ F problem, t.validate = .error (.invalidParameter F problem) ∧ F ∉ blamed)) ∧
    ∃ blamed t, Zeroing s blamed t ∧ t.validate = .ok t := by
  refine ⟨fun F problem h => ⟨not_isZero_of_blamed h, fun G hG => soundAt_of_blamed h hG⟩, ?_, ?_⟩
  · intro blamed t h
    refine ⟨h.nodup, h.length_le, ?_⟩
    rcases t.valid_or_blamed with hvalid | ⟨F, problem, hblame⟩
    · exact .inl (validate_eq_ok_iff.2 ⟨hvalid, rfl⟩)
    · refine .inr ⟨F, problem, hblame, fun hmem => ?_⟩
      have hnot := not_isZero_of_blamed hblame
      rw [h.isZero_of_mem hmem] at hnot
      cases hnot
  · obtain ⟨blamed, t, h, hvalid⟩ := s.exists_zeroing
    exact ⟨blamed, t, h, validate_eq_ok_iff.2 ⟨hvalid, rfl⟩⟩

/-- A tape near the lower end of the range, with a part that reaches beyond it, at a place that
is not a number. -/
def lowTape : TapeSpec where
  originX := .nan
  originY := -1.7e308
  tapeWidth := 8
  tapePitch := 4
  holeEdgeDistance := 1.75
  holeDiameter := 1.5
  partHoleOffset := 3.5
  partWidth := 1.7e308
  partHeight := 1.27
  partCount := 1

theorem blame_sound_lowTape :
    lowTape.validate = .error (.invalidParameter .originX (.notFinite .nan)) ∧
      (lowTape.zeroed true .originX).validate =
        .error (.invalidParameter .partWidth .unplaceable) ∧
      ((lowTape.zeroed true .originX).dimension .partWidth).isZero = false ∧
      ((lowTape.zeroed true .originX).dimension .originX).isFinite ∧
      Zeroing lowTape [.originX, .partWidth]
        ((lowTape.zeroed true .originX).zeroed false .partWidth) ∧
      [Parameter.originX, .partWidth].Nodup := by
  have horigin : lowTape.validate = .error (.invalidParameter .originX (.notFinite .nan)) :=
    validate_eq_error_iff.2 (by decide +kernel)
  have hwidth : (lowTape.zeroed true .originX).validate =
      .error (.invalidParameter .partWidth .unplaceable) :=
    validate_eq_error_iff.2 (by decide +kernel)
  have hrun := Zeroing.step true horigin (.step false hwidth (.refl _))
  obtain ⟨hblame, -, -⟩ := blame_sound (lowTape.zeroed true .originX)
  obtain ⟨hnot, hbefore⟩ := hblame _ _ hwidth
  exact ⟨horigin, hwidth, hnot, (hbefore .originX (by decide)).1, hrun,
    ((blame_sound lowTape).2.1 _ _ hrun).1⟩

end TapeSpec

end CarrierTape
