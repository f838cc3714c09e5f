import CarrierTape.Proofs.Tape.Validity

/-!
The coordinates along a tape. They grow with the index of the pocket, so those of
the first and the last pocket enclose all others, and a hole lies between the start
of its interval and the part behind it. The main statement is `draw_succeeds_iff`:
the few extremes that are checked stand for every coordinate of the drawing.
-/

namespace CarrierTape

open Binary64

def Point.Finite (p : Point) : Prop :=
  p.x.isFinite ∧ p.y.isFinite

def Shape.Finite : Shape → Prop
  | .rect r => r.min.Finite ∧ r.max.Finite
  | .circle c => c.centre.Finite ∧ c.edge.Finite

namespace TapeSpec

variable {s : TapeSpec}

theorem Dimensioned.length (h : s.Dimensioned) {v : Binary64} (hv : v ∈ s.lengthValues) :
    v.isFinite ∧ 0 ≤ v := by
  obtain ⟨hfinite, hneg⟩ := h.lengths v hv
  exact ⟨hfinite, (not_lt_zero_iff hfinite).1 hneg⟩

theorem Dimensioned.tapePitch (h : s.Dimensioned) : s.tapePitch.isFinite ∧ 0 ≤ s.tapePitch :=
  h.length (by simp [lengthValues])

theorem Dimensioned.holeDiameter (h : s.Dimensioned) :
    s.holeDiameter.isFinite ∧ 0 ≤ s.holeDiameter :=
  h.length (by simp [lengthValues])

theorem Dimensioned.partHeight (h : s.Dimensioned) : s.partHeight.isFinite ∧ 0 ≤ s.partHeight :=
  h.length (by simp [lengthValues])

theorem Dimensioned.partWidth (h : s.Dimensioned) : s.partWidth.isFinite ∧ 0 ≤ s.partWidth :=
  h.length (by simp [lengthValues])

theorem Dimensioned.isFinite_ofNat (h : s.Dimensioned) {i : Nat} (hi : i ≤ s.partCount) :
    (Binary64.ofNat i).isFinite :=
  Binary64.isFinite_ofNat (hi.trans (h.partCount.trans (by decide)))

theorem Dimensioned.pitchOffset_nonneg (h : s.Dimensioned) {i : Nat} (hi : i ≤ s.partCount) :
    0 ≤ s.pitchOffset i :=
  Binary64.mul_nonneg h.tapePitch.2 h.tapePitch.1 (ofNat_nonneg i) (h.isFinite_ofNat hi)

theorem Dimensioned.pitchOffset_mono (h : s.Dimensioned) {i j : Nat} (hij : i ≤ j)
    (hj : j ≤ s.partCount) : s.pitchOffset i ≤ s.pitchOffset j :=
  Binary64.mul_le_mul_left h.tapePitch.2 h.tapePitch.1 (h.isFinite_ofNat (hij.trans hj))
    (h.isFinite_ofNat hj) (ofNat_mono hij)

theorem Dimensioned.start_mono (h : s.Dimensioned) {i j : Nat} (hij : i ≤ j)
    (hj : j ≤ s.partCount) : s.originY + s.pitchOffset i ≤ s.originY + s.pitchOffset j :=
  Binary64.add_le_add_left h.originY (h.pitchOffset_mono hij hj)

theorem Dimensioned.originY_le_start (h : s.Dimensioned) {i : Nat} (hi : i ≤ s.partCount) :
    s.originY ≤ s.originY + s.pitchOffset i :=
  Binary64.le_add_of_nonneg h.originY (h.pitchOffset_nonneg hi)

theorem Dimensioned.isFinite_start (h : s.Dimensioned) {i j : Nat} (hij : i ≤ j)
    (hj : j ≤ s.partCount) (hfinite : (s.partCentre j).y.isFinite) :
    (s.originY + s.pitchOffset i).isFinite :=
  isFinite_of_le_of_le (h.originY_le_start (hij.trans hj)) (h.start_mono hij hj) h.originY
    (isFinite_of_isFinite_add hfinite).1

theorem Dimensioned.partCentre_y_mono (h : s.Dimensioned) {i j : Nat} (hij : i ≤ j)
    (hj : j ≤ s.partCount) : (s.partCentre i).y ≤ (s.partCentre j).y :=
  Binary64.add_le_add_right h.tapePitch.1 (h.start_mono hij hj)

theorem Dimensioned.holeCentre_y_le_partCentre_y (h : s.Dimensioned) {i : Nat}
    (hstart : (s.originY + s.pitchOffset i).isFinite) :
    (s.holeCentre i).y ≤ (s.partCentre i).y :=
  Binary64.add_le_add_left hstart (half_le h.tapePitch.2 h.tapePitch.1)

theorem Dimensioned.start_le_holeCentre_y (h : s.Dimensioned) {i : Nat}
    (hstart : (s.originY + s.pitchOffset i).isFinite) :
    s.originY + s.pitchOffset i ≤ (s.holeCentre i).y :=
  Binary64.le_add_of_nonneg hstart (half_nonneg h.tapePitch.2 h.tapePitch.1)

theorem Dimensioned.start_le_partCentre_y (h : s.Dimensioned) {i : Nat}
    (hstart : (s.originY + s.pitchOffset i).isFinite) :
    s.originY + s.pitchOffset i ≤ (s.partCentre i).y :=
  Binary64.le_add_of_nonneg hstart h.tapePitch.2

theorem Dimensioned.isFinite_partCentre_y (h : s.Dimensioned) {i last : Nat} (hi : i ≤ last)
    (hlast : last ≤ s.partCount) (hfinite : (s.partCentre last).y.isFinite) :
    (s.partCentre i).y.isFinite := by
  have hstart := h.isFinite_start hi hlast hfinite
  exact isFinite_of_le_of_le (h.start_le_partCentre_y hstart) (h.partCentre_y_mono hi hlast) hstart
    hfinite

/-- The outermost coordinates of parts up to the index `last`. -/
structure PartsPlaced (s : TapeSpec) (last : Nat) : Prop where
  centreX : (s.partCentre 0).x.isFinite
  minX : ((s.partCentre 0).x - s.partHeight / 2).isFinite
  maxX : ((s.partCentre 0).x + s.partHeight / 2).isFinite
  lastY : (s.partCentre last).y.isFinite
  minY : ((s.partCentre 0).y - s.partWidth / 2).isFinite
  maxY : ((s.partCentre last).y + s.partWidth / 2).isFinite

theorem forall_extremes_iff :
    (∀ v ∈ s.extremes.map (·.2), v.isFinite) ↔
      ((s.holeCentre 0).x.isFinite ∧ ((s.holeCentre 0).x + s.holeDiameter / 2).isFinite) ∧
      s.outline.max.Finite ∧ ∀ last, s.partCount = last + 1 → s.PartsPlaced last := by
  unfold extremes
  cases hcount : s.partCount with
  | zero => simp [outline, Point.Finite, and_assoc]
  | succ last =>
    constructor
    · intro h
      simp only [List.cons_append, List.nil_append, List.map_cons, List.map_nil,
        List.forall_mem_cons] at h
      obtain ⟨hx, hedge, hwidth, hlength, h1, h2, h3, h4, h5, h6, -⟩ := h
      refine ⟨⟨hx, hedge⟩, ⟨hwidth, hlength⟩, fun k hk => ?_⟩
      obtain rfl : last = k := Nat.succ.inj hk
      exact ⟨h1, h2, h3, h4, h5, h6⟩
    · rintro ⟨⟨hx, hedge⟩, ⟨hwidth, hlength⟩, hparts⟩
      obtain ⟨h1, h2, h3, h4, h5, h6⟩ := hparts last rfl
      simp only [List.cons_append, List.nil_append, List.map_cons, List.map_nil,
        List.forall_mem_cons]
      exact ⟨hx, hedge, hwidth, hlength, h1, h2, h3, h4, h5, h6, by simp⟩

theorem Dimensioned.isFinite_hole (h : s.Dimensioned) {i last : Nat} (hi : i ≤ last)
    (hlast : last ≤ s.partCount) (hx : (s.holeCentre 0).x.isFinite)
    (hedge : ((s.holeCentre 0).x + s.holeDiameter / 2).isFinite)
    (hparts : s.PartsPlaced last) : (s.hole i).centre.Finite ∧ (s.hole i).edge.Finite := by
  have hstart := h.isFinite_start hi hlast hparts.lastY
  have hy : (s.holeCentre i).y.isFinite :=
    isFinite_of_le_of_le (h.start_le_holeCentre_y hstart)
      (Binary64.le_trans (h.holeCentre_y_le_partCentre_y hstart) (h.partCentre_y_mono hi hlast))
      hstart hparts.lastY
  exact ⟨⟨hx, hy⟩, ⟨hedge, hy⟩⟩

theorem Dimensioned.isFinite_part (h : s.Dimensioned) {i last : Nat} (hi : i ≤ last)
    (hlast : last ≤ s.partCount) (hparts : s.PartsPlaced last) :
    (s.part i).min.Finite ∧ (s.part i).max.Finite := by
  obtain ⟨hwidth, hwidth0⟩ := h.partWidth
  have hhalf := isFinite_half hwidth0 hwidth
  have hhalf0 := half_nonneg hwidth0 hwidth
  have hy := h.isFinite_partCentre_y hi hlast hparts.lastY
  have hmin : ((s.partCentre i).y - s.partWidth / 2).isFinite :=
    isFinite_of_le_of_le
      (Binary64.sub_le_sub_right hhalf (h.partCentre_y_mono (Nat.zero_le i) (hi.trans hlast)))
      (sub_le_of_nonneg hy hhalf0) hparts.minY hy
  have hmax : ((s.partCentre i).y + s.partWidth / 2).isFinite :=
    isFinite_of_le_of_le (Binary64.le_add_of_nonneg hy hhalf0)
      (Binary64.add_le_add_right hhalf (h.partCentre_y_mono hi hlast)) hy hparts.maxY
  exact ⟨⟨hparts.minX, hmin⟩, ⟨hparts.maxX, hmax⟩⟩

theorem partsPlaced_of_corners {last : Nat}
    (hfirst : (s.part 0).min.Finite ∧ (s.part 0).max.Finite)
    (hlast : (s.part last).min.Finite ∧ (s.part last).max.Finite) : s.PartsPlaced last where
  centreX := (isFinite_of_isFinite_add hfirst.2.1).1
  minX := hfirst.1.1
  maxX := hfirst.2.1
  lastY := (isFinite_of_isFinite_add hlast.2.2).1
  minY := hfirst.1.2
  maxY := hlast.2.2

theorem forall_records_finite_iff (layers : LayerMap) (s : TapeSpec) :
    (∀ r ∈ s.records layers, r.shape.Finite) ↔
      (s.outline.min.Finite ∧ s.outline.max.Finite) ∧
      ∀ i < s.partCount,
        ((s.hole i).centre.Finite ∧ (s.hole i).edge.Finite) ∧
        ((s.part i).min.Finite ∧ (s.part i).max.Finite) := by
  simp only [records, List.forall_mem_cons, List.forall_mem_append, List.forall_mem_map,
    List.mem_range, ← forall_and]
  rfl

/-- A tape is drawn exactly if its dimensions are sound and the first hole's place
across the tape, the outline, and every hole and every part have finite
coordinates, and these are the coordinates of all its records. -/
theorem draw_succeeds_iff (layers : LayerMap) (s : TapeSpec) :
    ((∃ records, s.draw layers = .ok records) ↔
      (s.originX.isFinite ∧ s.originY.isFinite) ∧
      (∀ v ∈ [s.tapeWidth, s.tapePitch, s.holeEdgeDistance, s.holeDiameter, s.partHoleOffset,
        s.partWidth, s.partHeight], v.isFinite ∧ ¬ v < 0) ∧
      s.partCount ≤ 1000000 ∧
      ((s.holeCentre 0).x.isFinite ∧ ((s.holeCentre 0).x + s.holeDiameter / 2).isFinite) ∧
      (s.outline.min.Finite ∧ s.outline.max.Finite) ∧
      ∀ i < s.partCount,
        ((s.hole i).centre.Finite ∧ (s.hole i).edge.Finite) ∧
        ((s.part i).min.Finite ∧ (s.part i).max.Finite)) ∧
    ((∀ r ∈ s.records layers, r.shape.Finite) ↔
      (s.outline.min.Finite ∧ s.outline.max.Finite) ∧
      ∀ i < s.partCount,
        ((s.hole i).centre.Finite ∧ (s.hole i).edge.Finite) ∧
        ((s.part i).min.Finite ∧ (s.part i).max.Finite)) := by
  refine ⟨?_, forall_records_finite_iff layers s⟩
  have hdraw : (∃ records, s.draw layers = .ok records) ↔ s.Valid := by
    simp [draw_eq_ok_iff]
  rw [hdraw, valid_iff, forall_extremes_iff]
  constructor
  · rintro ⟨hdim, ⟨hx, hedge⟩, houtline, hparts⟩
    refine ⟨⟨hdim.originX, hdim.originY⟩, hdim.lengths, hdim.partCount, ⟨hx, hedge⟩,
      ⟨⟨hdim.originX, hdim.originY⟩, houtline⟩, fun i hi => ?_⟩
    obtain ⟨last, hlast⟩ := Nat.exists_eq_succ_of_ne_zero (Nat.ne_of_gt (Nat.zero_lt_of_lt hi))
    have hplaced := hparts last hlast
    have hle : i ≤ last := by omega
    have hcount : last ≤ s.partCount := by omega
    exact ⟨hdim.isFinite_hole hle hcount hx hedge hplaced, hdim.isFinite_part hle hcount hplaced⟩
  · rintro ⟨⟨hox, hoy⟩, hlengths, hcount, hhole, ⟨-, houtline⟩, hall⟩
    refine ⟨⟨hox, hoy, hlengths, hcount⟩, hhole, houtline, fun last hlast => ?_⟩
    exact partsPlaced_of_corners (hall 0 (by omega)).2 (hall last (by omega)).2

end TapeSpec

end CarrierTape
