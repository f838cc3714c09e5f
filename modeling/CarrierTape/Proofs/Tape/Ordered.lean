import CarrierTape.Proofs.Decimal.Canonical
import CarrierTape.Proofs.Tape.Shortened

/-!
The order of the coordinates on a tape. Each of them is a sum of its own, nested in its own
way, and a pitch can be less than the distance of neighbouring numbers at the origin, but
rounding never turns an order around. So no shape has its corners crossed, and along the tape
as across it a hole stands between the origin and its part. Formats round once more and keep
the order as well (`draw_ordered`).
-/

namespace CarrierTape

open Binary64 Decimal

/-- Numbers in order whose texts, in every format, are numbers in that order. -/
structure InOrder (x y : Binary64) : Prop where
  le : x ≤ y
  written : ∀ f : NumberFormat, AtMost (f.format x) (f.format y)

theorem InOrder.of_le {x y : Binary64} (hx : x.isFinite) (hy : y.isFinite) (h : x ≤ y) :
    InOrder x y :=
  ⟨h, fun f => f.atMost_format hx hy h⟩

/-- A rectangle from its least corner to its greatest one, or a circle with its edge to the
right of its centre and level with it. -/
def Shape.Ordered : Shape → Prop
  | .rect r => InOrder r.min.x r.max.x ∧ InOrder r.min.y r.max.y
  | .circle c => InOrder 0 c.radius ∧ InOrder c.centre.x c.edge.x ∧ c.edge.y = c.centre.y

theorem sub_le_add {x y : Binary64} (hx : x.isFinite) (hy : 0 ≤ y) : x - y ≤ x + y :=
  Binary64.le_trans (sub_le_of_nonneg hx hy) (Binary64.le_add_of_nonneg hx hy)

/-- Extents that are not negative do not cross the corners around a finite centre. -/
theorem Rect.ordered_centred {centre : Point} {halfX halfY : Binary64} (hcentre : centre.Finite)
    (hx : 0 ≤ halfX) (hy : 0 ≤ halfY) (hmin : (Rect.centred centre halfX halfY).min.Finite)
    (hmax : (Rect.centred centre halfX halfY).max.Finite) :
    (Shape.rect (.centred centre halfX halfY)).Ordered :=
  ⟨.of_le hmin.1 hmax.1 (sub_le_add hcentre.1 hx), .of_le hmin.2 hmax.2 (sub_le_add hcentre.2 hy)⟩

namespace TapeSpec

variable {s : TapeSpec} {i j : Nat}

theorem Dimensioned.holeCentre_y_mono (h : s.Dimensioned) (hij : i ≤ j) (hj : j ≤ s.partCount) :
    (s.holeCentre i).y ≤ (s.holeCentre j).y := by
  obtain ⟨hpitch, hpitch0⟩ := h.tapePitch
  exact Binary64.add_le_add_right (isFinite_half hpitch0 hpitch) (h.start_mono hij hj)

theorem Dimensioned.originX_le_holeCentre_x (h : s.Dimensioned) :
    s.originX ≤ (s.holeCentre i).x :=
  Binary64.le_add_of_nonneg h.originX (h.length (by simp [lengthValues])).2

theorem Dimensioned.holeCentre_x_le_partCentre_x (h : s.Dimensioned)
    (hx : (s.holeCentre i).x.isFinite) : (s.holeCentre i).x ≤ (s.partCentre i).x :=
  Binary64.le_add_of_nonneg hx (h.length (by simp [lengthValues])).2

/-! ### What is finite -/

theorem Valid.isFinite_outline_max (h : s.Valid) : s.outline.max.Finite :=
  (forall_extremes_iff.1 (valid_iff.1 h).2).2.1

theorem Valid.partsPlaced (h : s.Valid) (hi : i < s.partCount) :
    s.PartsPlaced (s.partCount - 1) :=
  (forall_extremes_iff.1 (valid_iff.1 h).2).2.2 _ (by omega)

theorem Valid.isFinite_hole (h : s.Valid) (hi : i < s.partCount) :
    (s.hole i).centre.Finite ∧ (s.hole i).edge.Finite := by
  obtain ⟨hdim, hextremes⟩ := valid_iff.1 h
  obtain ⟨⟨hx, hedge⟩, -⟩ := forall_extremes_iff.1 hextremes
  exact hdim.isFinite_hole (by omega) (Nat.sub_le _ 1) hx hedge (h.partsPlaced hi)

theorem Valid.isFinite_part (h : s.Valid) (hi : i < s.partCount) :
    (s.part i).min.Finite ∧ (s.part i).max.Finite :=
  (valid_iff.1 h).1.isFinite_part (by omega) (Nat.sub_le _ 1) (h.partsPlaced hi)

theorem Valid.isFinite_partCentre (h : s.Valid) (hi : i < s.partCount) :
    (s.partCentre i).Finite := by
  obtain ⟨-, hmax⟩ := h.isFinite_part hi
  exact ⟨(isFinite_of_isFinite_add hmax.1).1, (isFinite_of_isFinite_add hmax.2).1⟩

theorem Valid.isFinite_start (h : s.Valid) (hi : i < s.partCount) :
    (s.originY + s.pitchOffset i).isFinite :=
  (isFinite_of_isFinite_add (h.isFinite_partCentre hi).2).1

/-! ### The shapes -/

theorem Valid.outline_min_le_max (h : s.Valid) : s.outline.min.x ≤ s.outline.max.x := by
  have hdim := (valid_iff.1 h).1
  exact Binary64.le_add_of_nonneg hdim.originX (hdim.length (by simp [lengthValues])).2

theorem Valid.ordered_outline (h : s.Valid) : (Shape.rect s.outline).Ordered := by
  have hdim := (valid_iff.1 h).1
  have hmax := h.isFinite_outline_max
  refine ⟨.of_le hdim.originX hmax.1 h.outline_min_le_max, .of_le hdim.originY hmax.2 ?_⟩
  exact Binary64.le_add_of_nonneg hdim.originY hdim.runLength_nonneg

theorem Valid.ordered_hole (h : s.Valid) (hi : i < s.partCount) :
    (Shape.circle (s.hole i)).Ordered := by
  obtain ⟨hdiameter, hdiameter0⟩ := (valid_iff.1 h).1.holeDiameter
  obtain ⟨hcentre, hedge⟩ := h.isFinite_hole hi
  have hradius : 0 ≤ (s.hole i).radius := half_nonneg hdiameter0 hdiameter
  exact ⟨.of_le isFinite_zero (isFinite_half hdiameter0 hdiameter) hradius,
    .of_le hcentre.1 hedge.1 (Binary64.le_add_of_nonneg hcentre.1 hradius), rfl⟩

theorem Valid.ordered_part (h : s.Valid) (hi : i < s.partCount) :
    (Shape.rect (s.part i)).Ordered := by
  have hdim := (valid_iff.1 h).1
  obtain ⟨hheight, hheight0⟩ := hdim.partHeight
  obtain ⟨hwidth, hwidth0⟩ := hdim.partWidth
  obtain ⟨hmin, hmax⟩ := h.isFinite_part hi
  exact Rect.ordered_centred (h.isFinite_partCentre hi) (half_nonneg hheight0 hheight)
    (half_nonneg hwidth0 hwidth) hmin hmax

theorem Valid.ordered_records (h : s.Valid) (layers : LayerMap) :
    ∀ record ∈ s.records layers, record.shape.Ordered := by
  simp only [records, List.forall_mem_cons, List.forall_mem_append, List.forall_mem_map,
    List.mem_range]
  exact ⟨h.ordered_outline, fun _ hi => h.ordered_hole hi, fun _ hi => h.ordered_part hi⟩

/-! ### The pockets -/

/-- Every shape of a drawing is in order, and so are the origin, the holes and the parts: up to
the part of its own pocket, and from pocket to pocket. Written in any format, the coordinates
have the same order. -/
theorem draw_ordered {layers : LayerMap} {records : List Record} (h : s.draw layers = .ok records) :
    (∀ record ∈ records, record.shape.Ordered) ∧
    ∀ i j, i ≤ j → j < s.partCount →
      (InOrder s.originY (s.holeCentre i).y ∧
        InOrder (s.holeCentre i).y (s.partCentre i).y) ∧
      (InOrder (s.holeCentre i).y (s.holeCentre j).y ∧
        InOrder (s.partCentre i).y (s.partCentre j).y) ∧
      InOrder s.originX (s.holeCentre i).x ∧ InOrder (s.holeCentre i).x (s.partCentre i).x := by
  obtain ⟨hs, rfl⟩ := draw_eq_ok_iff.1 h
  have hdim := (valid_iff.1 hs).1
  refine ⟨hs.ordered_records layers, fun i j hij hj => ?_⟩
  have hi : i < s.partCount := hij.trans_lt hj
  obtain ⟨hhole, -⟩ := hs.isFinite_hole hi
  obtain ⟨hholej, -⟩ := hs.isFinite_hole hj
  have hpart := hs.isFinite_partCentre hi
  have hpartj := hs.isFinite_partCentre hj
  have hstart := hs.isFinite_start hi
  -- the hole is not before the start of its interval, nor that before the origin
  have hbefore : s.originY ≤ (s.holeCentre i).y :=
    Binary64.le_trans (hdim.originY_le_start hi.le) (hdim.start_le_holeCentre_y hstart)
  exact ⟨⟨.of_le hdim.originY hhole.2 hbefore,
      .of_le hhole.2 hpart.2 (hdim.holeCentre_y_le_partCentre_y hstart)⟩,
    ⟨.of_le hhole.2 hholej.2 (hdim.holeCentre_y_mono hij hj.le),
      .of_le hpart.2 hpartj.2 (hdim.partCentre_y_mono hij hj.le)⟩,
    .of_le hdim.originX hhole.1 hdim.originX_le_holeCentre_x,
    .of_le hhole.1 hpart.1 (hdim.holeCentre_x_le_partCentre_x hhole.1)⟩

/-- Where numbers are four pitches apart, the first three holes fall together. -/
theorem draw_ordered_fineTape :
    ∃ records, fineTape.draw .standard = .ok records ∧
      (∀ record ∈ records, record.shape.Ordered) ∧
      (fineTape.holeCentre 0).y = (fineTape.holeCentre 2).y ∧
      InOrder (fineTape.holeCentre 0).y (fineTape.holeCentre 4).y ∧
      InOrder fineTape.originX (fineTape.holeCentre 4).x := by
  have hdraw : fineTape.draw .standard = .ok (fineTape.records .standard) :=
    draw_eq_ok_iff.2 ⟨by decide +kernel, rfl⟩
  obtain ⟨hshapes, hpockets⟩ := draw_ordered hdraw
  obtain ⟨-, ⟨hrow, -⟩, -⟩ := hpockets 0 4 (by decide) (by decide)
  obtain ⟨-, -, hacross, -⟩ := hpockets 4 4 le_rfl (by decide)
  exact ⟨_, hdraw, hshapes, by decide +kernel, hrow, hacross⟩

end TapeSpec

end CarrierTape
