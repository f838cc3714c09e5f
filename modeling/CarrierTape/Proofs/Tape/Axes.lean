import CarrierTape.Proofs.Tape.Validity

/-!
The two directions of a drawing do not mix. `AlikeAlong` and `AlikeAcross` name the
dimensions that may reach the coordinates of one direction; a part's width is one of the
former and its height one of the latter. Tapes that are alike in one direction are drawn
with the same coordinates in it, record by record, whatever their other dimensions are
(`draw_axes_independent`). Across the tape the index of a pocket does not matter either, so
holes stand in one row and parts in another.
-/

namespace CarrierTape

/-- The two directions of a drawing: X across the tape, and Y along its feed direction. -/
inductive Axis where
  | across
  | along
deriving DecidableEq

def Point.coordinate (p : Point) : Axis → Binary64
  | .across => p.x
  | .along => p.y

@[simp] theorem Point.coordinate_across (p : Point) : p.coordinate .across = p.x := rfl

@[simp] theorem Point.coordinate_along (p : Point) : p.coordinate .along = p.y := rfl

namespace Shape

/-- The points that a shape is drawn by: two corners, or a centre and a point beside it. -/
def points : Shape → List Point
  | .rect r => [r.min, r.max]
  | .circle c => [c.centre, c.edge]

def coordinates (axis : Axis) (shape : Shape) : List Binary64 :=
  shape.points.map (·.coordinate axis)

@[simp] theorem coordinates_rect (axis : Axis) (r : Rect) :
    (Shape.rect r).coordinates axis = [r.min.coordinate axis, r.max.coordinate axis] := rfl

@[simp] theorem coordinates_circle (axis : Axis) (c : Circle) :
    (Shape.circle c).coordinates axis = [c.centre.coordinate axis, c.edge.coordinate axis] := rfl

def radius? : Shape → Option Binary64
  | .rect _ => none
  | .circle c => some c.radius

end Shape

namespace TapeSpec

structure AlikeAlong (s t : TapeSpec) : Prop where
  originY : s.originY = t.originY
  tapePitch : s.tapePitch = t.tapePitch
  partWidth : s.partWidth = t.partWidth

structure AlikeAcross (s t : TapeSpec) : Prop where
  originX : s.originX = t.originX
  tapeWidth : s.tapeWidth = t.tapeWidth
  holeEdgeDistance : s.holeEdgeDistance = t.holeEdgeDistance
  holeDiameter : s.holeDiameter = t.holeDiameter
  partHoleOffset : s.partHoleOffset = t.partHoleOffset
  partHeight : s.partHeight = t.partHeight

variable {s t : TapeSpec}

theorem AlikeAcross.refl (s : TapeSpec) : s.AlikeAcross s :=
  ⟨rfl, rfl, rfl, rfl, rfl, rfl⟩

/-! ### Along the tape -/

theorem AlikeAlong.start_eq (h : s.AlikeAlong t) (i : Nat) :
    s.originY + s.pitchOffset i = t.originY + t.pitchOffset i := by
  rw [pitchOffset, pitchOffset, h.originY, h.tapePitch]

theorem AlikeAlong.holeCentre_y (h : s.AlikeAlong t) (i : Nat) :
    (s.holeCentre i).y = (t.holeCentre i).y := by
  simp only [holeCentre, h.start_eq i, h.tapePitch]

theorem AlikeAlong.partCentre_y (h : s.AlikeAlong t) (i : Nat) :
    (s.partCentre i).y = (t.partCentre i).y := by
  simp only [partCentre, h.start_eq i, h.tapePitch]

theorem AlikeAlong.outline (h : s.AlikeAlong t) (hcount : s.partCount = t.partCount) :
    (Shape.rect s.outline).coordinates .along = (Shape.rect t.outline).coordinates .along := by
  simp [TapeSpec.outline, runLength, h.originY, h.tapePitch, hcount]

theorem AlikeAlong.hole (h : s.AlikeAlong t) (i : Nat) :
    (Shape.circle (s.hole i)).coordinates .along =
      (Shape.circle (t.hole i)).coordinates .along := by
  simp [TapeSpec.hole, Circle.filled, Circle.edge, h.holeCentre_y i]

theorem AlikeAlong.part (h : s.AlikeAlong t) (i : Nat) :
    (Shape.rect (s.part i)).coordinates .along = (Shape.rect (t.part i)).coordinates .along := by
  simp [TapeSpec.part, Rect.centred, h.partCentre_y i, h.partWidth]

/-! ### Across the tape -/

theorem AlikeAcross.holeCentre_x (h : s.AlikeAcross t) (i j : Nat) :
    (s.holeCentre i).x = (t.holeCentre j).x := by
  simp only [holeCentre, h.originX, h.holeEdgeDistance]

theorem AlikeAcross.partCentre_x (h : s.AlikeAcross t) (i j : Nat) :
    (s.partCentre i).x = (t.partCentre j).x := by
  simp only [partCentre, h.originX, h.holeEdgeDistance, h.partHoleOffset]

theorem AlikeAcross.outline (h : s.AlikeAcross t) :
    (Shape.rect s.outline).coordinates .across = (Shape.rect t.outline).coordinates .across := by
  simp [TapeSpec.outline, h.originX, h.tapeWidth]

theorem AlikeAcross.radius (h : s.AlikeAcross t) (i j : Nat) :
    (s.hole i).radius = (t.hole j).radius := by
  simp only [TapeSpec.hole, Circle.filled, h.holeDiameter]

theorem AlikeAcross.hole (h : s.AlikeAcross t) (i j : Nat) :
    (Shape.circle (s.hole i)).coordinates .across =
      (Shape.circle (t.hole j)).coordinates .across := by
  simp [TapeSpec.hole, Circle.filled, Circle.edge, h.holeCentre_x i j, h.holeDiameter]

theorem AlikeAcross.part (h : s.AlikeAcross t) (i j : Nat) :
    (Shape.rect (s.part i)).coordinates .across = (Shape.rect (t.part j)).coordinates .across := by
  simp [TapeSpec.part, Rect.centred, h.partCentre_x i j, h.partHeight]

/-! ### Record by record -/

/-- What is the same for the outlines, and pocket by pocket for the holes and the parts, is
the same record by record. -/
theorem map_records_eq {α : Type} {f : Record → α} {layers layers' : LayerMap}
    (hcount : s.partCount = t.partCount)
    (houtline : f (s.outlineRecord layers) = f (t.outlineRecord layers'))
    (hhole : ∀ i, f (s.holeRecord layers i) = f (t.holeRecord layers' i))
    (hpart : ∀ i, f (s.partRecord layers i) = f (t.partRecord layers' i)) :
    (s.records layers).map f = (t.records layers').map f := by
  simp only [records, List.map_cons, List.map_append, List.map_map, Function.comp_def, houtline,
    hhole, hpart, hcount]

theorem exists_hole_of_mem {layers : LayerMap} {r : Record} (hr : r ∈ s.records layers)
    (hpass : r.pass = .hole) : ∃ i, r = s.holeRecord layers i := by
  simp only [records, List.mem_cons, List.mem_append, List.mem_map] at hr
  rcases hr with rfl | ⟨i, -, rfl⟩ | ⟨i, -, rfl⟩
  · cases hpass
  · exact ⟨i, rfl⟩
  · cases hpass

theorem exists_part_of_mem {layers : LayerMap} {r : Record} (hr : r ∈ s.records layers)
    (hpass : r.pass = .part) : ∃ i, r = s.partRecord layers i := by
  simp only [records, List.mem_cons, List.mem_append, List.mem_map] at hr
  rcases hr with rfl | ⟨i, -, rfl⟩ | ⟨i, -, rfl⟩
  · cases hpass
  · cases hpass
  · exact ⟨i, rfl⟩

/-- Two tapes with as many pockets, on whatever layers they are drawn: if they are alike along
their feed direction, all Y coordinates are the same, record by record; if they are alike
across it, all X coordinates and all radii are. On one tape all holes have the same X, and all
parts reach from one X to another. -/
theorem draw_axes_independent {layers layers' : LayerMap} {drawing other : List Record}
    (hs : s.draw layers = .ok drawing) (ht : t.draw layers' = .ok other)
    (hcount : s.partCount = t.partCount) :
    drawing.map (·.pass) = other.map (·.pass) ∧
    (s.AlikeAlong t →
      drawing.map (·.shape.coordinates .along) = other.map (·.shape.coordinates .along)) ∧
    (s.AlikeAcross t →
      drawing.map (·.shape.coordinates .across) = other.map (·.shape.coordinates .across) ∧
      drawing.map (·.shape.radius?) = other.map (·.shape.radius?)) ∧
    (∃ x, ∀ r ∈ drawing, r.pass = .hole → ∃ c, r.shape = .circle c ∧ c.centre.x = x) ∧
    ∃ low high, ∀ r ∈ drawing, r.pass = .part →
      ∃ rect, r.shape = .rect rect ∧ rect.min.x = low ∧ rect.max.x = high := by
  obtain ⟨-, rfl⟩ := draw_eq_ok_iff.1 hs
  obtain ⟨-, rfl⟩ := draw_eq_ok_iff.1 ht
  refine ⟨?_, fun halong => ?_, fun hacross => ⟨?_, ?_⟩, ⟨(s.holeCentre 0).x, ?_⟩,
    ⟨(s.part 0).min.x, (s.part 0).max.x, ?_⟩⟩
  · exact map_records_eq hcount rfl (fun _ => rfl) (fun _ => rfl)
  · exact map_records_eq hcount (halong.outline hcount) halong.hole halong.part
  · exact map_records_eq hcount hacross.outline (fun i => hacross.hole i i)
      (fun i => hacross.part i i)
  · exact map_records_eq hcount rfl (fun i => congrArg some (hacross.radius i i)) (fun _ => rfl)
  · intro r hr hpass
    obtain ⟨i, rfl⟩ := exists_hole_of_mem hr hpass
    exact ⟨s.hole i, rfl, (AlikeAcross.refl s).holeCentre_x i 0⟩
  · intro r hr hpass
    obtain ⟨i, rfl⟩ := exists_part_of_mem hr hpass
    have hcorners : [(s.part i).min.x, (s.part i).max.x] = [(s.part 0).min.x, (s.part 0).max.x] :=
      (AlikeAcross.refl s).part i 0
    rw [List.cons.injEq, List.cons.injEq] at hcorners
    obtain ⟨hmin, hmax, -⟩ := hcorners
    exact ⟨s.part i, rfl, hmin, hmax⟩

def longParts : TapeSpec where
  originX := 0
  originY := -3
  tapeWidth := 8
  tapePitch := 4
  holeEdgeDistance := 1.75
  holeDiameter := 1.5
  partHoleOffset := 3.5
  partWidth := 2.032
  partHeight := 1.27
  partCount := 2

/-- A wider tape elsewhere has its records at the same places along the feed direction, and a
tape that is fed in larger steps has them at the same places across it. -/
theorem draw_axes_independent_longParts :
    let wider : TapeSpec :=
      { longParts with originX := 20, tapeWidth := 12, partHoleOffset := 5.5, partHeight := 3 }
    let longer : TapeSpec := { longParts with originY := 0.5, tapePitch := 0.1, partWidth := 7 }
    ∃ drawing across along, longParts.draw .standard = .ok drawing ∧
      wider.draw ⟨1, 2, some 3⟩ = .ok across ∧ longer.draw .standard = .ok along ∧
      drawing.map (·.shape.coordinates .along) = across.map (·.shape.coordinates .along) ∧
      drawing.map (·.shape.coordinates .across) = along.map (·.shape.coordinates .across) := by
  intro wider longer
  have hdraw : longParts.draw .standard = .ok (longParts.records .standard) :=
    draw_eq_ok_iff.2 ⟨by decide +kernel, rfl⟩
  have hwider : wider.draw ⟨1, 2, some 3⟩ = .ok (wider.records ⟨1, 2, some 3⟩) :=
    draw_eq_ok_iff.2 ⟨by decide +kernel, rfl⟩
  have hlonger : longer.draw .standard = .ok (longer.records .standard) :=
    draw_eq_ok_iff.2 ⟨by decide +kernel, rfl⟩
  obtain ⟨-, halong, -⟩ := draw_axes_independent hdraw hwider rfl
  obtain ⟨-, -, hacross, -⟩ := draw_axes_independent hdraw hlonger rfl
  exact ⟨_, _, _, hdraw, hwider, hlonger, halong ⟨rfl, rfl, rfl⟩,
    (hacross ⟨rfl, rfl, rfl, rfl, rfl, rfl⟩).1⟩

end TapeSpec

end CarrierTape
