import CarrierTape.Proofs.Binary64.Error
import CarrierTape.Proofs.Decimal.Canonical
import CarrierTape.Proofs.Script.Lines
import CarrierTape.Proofs.Tape.Coordinates

/-!
How exactly a tape is drawn. Up to a kilometre every coordinate takes at most four
roundings below 2^22 and one halving, so it is less than 10^-9 away from the exact value
of its formula, however many pockets stand before it. Writing it down costs half a unit
of its last decimal on top.
-/

namespace CarrierTape

open Binary64 Decimal

/-! ### Shapes in exact coordinates -/

structure ExactPoint where
  x : ℚ
  y : ℚ

inductive ExactShape where
  | rect (min max : ExactPoint)
  | circle (centre edge : ExactPoint)

/-- The text is a number at most `error` away from `q`. -/
def NumberNear (error : ℚ) (q : ℚ) (text : List Char) : Prop :=
  ∃ v, valueOf? text = some v ∧ |v - q| ≤ error

inductive PointNear (error : ℚ) (p : ExactPoint) : List Char → Prop
  | mk {x y : List Char} (hx : NumberNear error p.x x) (hy : NumberNear error p.y y) :
    PointNear error p ('(' :: x ++ ' ' :: y ++ [')'])

/-- The line draws the shape with every number at most `error` away. -/
inductive LineNear (error : ℚ) : ExactShape → List Char → Prop
  | rect {min max : ExactPoint} {a b : List Char} (ha : PointNear error min a)
    (hb : PointNear error max b) :
    LineNear error (.rect min max) ("RECT ".toList ++ a ++ ' ' :: b ++ [';'])
  | circle {centre edge : ExactPoint} {a b : List Char} (ha : PointNear error centre a)
    (hb : PointNear error edge b) :
    LineNear error (.circle centre edge) ("CIRCLE ".toList ++ a ++ ' ' :: b ++ [';'])

structure Point.Near (p : Point) (q : ExactPoint) (error : ℚ) : Prop where
  x : p.x.Near q.x error
  y : p.y.Near q.y error

namespace NumberFormat

/-- Half a unit of the last decimal is lost by writing, whatever was lost before. -/
theorem numberNear_format (f : NumberFormat) {x : Binary64} {q error : ℚ} (h : x.Near q error) :
    NumberNear (1 / 2 / 10 ^ f.decimals + error) q (f.format x) := by
  obtain ⟨k, hk, hvalue⟩ := f.exists_valueOf?_format h.finite
  have hpos : (0 : ℚ) < 10 ^ f.decimals := by positivity
  have hwritten : |(k : ℚ) / 10 ^ f.decimals - x.toRat| ≤ 1 / 2 / 10 ^ f.decimals := by
    have hscaled : (k : ℚ) / 10 ^ f.decimals - x.toRat =
        -((x.toRat * 10 ^ f.decimals - k) / 10 ^ f.decimals) := by
      field_simp
      ring
    rw [hscaled, abs_neg, abs_div, abs_of_pos hpos]
    exact div_le_div_of_nonneg_right hk.near hpos.le
  exact ⟨_, hvalue, (abs_sub_le _ x.toRat _).trans (add_le_add hwritten h.error)⟩

theorem pointNear_pointText (f : NumberFormat) {p : Point} {q : ExactPoint} {error : ℚ}
    (h : p.Near q error) :
    PointNear (1 / 2 / 10 ^ f.decimals + error) q (Statement.pointText f p) :=
  .mk (f.numberNear_format h.x) (f.numberNear_format h.y)

end NumberFormat

namespace TapeSpec

def exactOutline (s : TapeSpec) : ExactShape :=
  .rect ⟨s.originX.toRat, s.originY.toRat⟩
    ⟨s.originX.toRat + s.tapeWidth.toRat,
      s.originY.toRat + s.tapePitch.toRat * (s.partCount + 1)⟩

def exactHole (s : TapeSpec) (index : Nat) : ExactShape :=
  let x := s.originX.toRat + s.holeEdgeDistance.toRat
  let y := s.originY.toRat + s.tapePitch.toRat * index + s.tapePitch.toRat / 2
  .circle ⟨x, y⟩ ⟨x + s.holeDiameter.toRat / 2, y⟩

def exactPart (s : TapeSpec) (index : Nat) : ExactShape :=
  let x := s.originX.toRat + s.holeEdgeDistance.toRat + s.partHoleOffset.toRat
  let y := s.originY.toRat + s.tapePitch.toRat * index + s.tapePitch.toRat
  .rect ⟨x - s.partHeight.toRat / 2, y - s.partWidth.toRat / 2⟩
    ⟨x + s.partHeight.toRat / 2, y + s.partWidth.toRat / 2⟩

/-- The shapes of a tape where its dimensions put them without any rounding. -/
def exactShapes (s : TapeSpec) : List ExactShape :=
  s.exactOutline ::
    ((List.range s.partCount).map s.exactHole ++ (List.range s.partCount).map s.exactPart)

/-- Origins, lengths and the whole run of the tape are at most a kilometre. -/
structure WithinKilometre (s : TapeSpec) : Prop where
  originX : |s.originX.toRat| ≤ 10 ^ 6
  originY : |s.originY.toRat| ≤ 10 ^ 6
  lengths : ∀ v ∈ s.lengthValues, v.toRat ≤ 10 ^ 6
  run : s.tapePitch.toRat * (s.partCount + 1) ≤ 10 ^ 6

/-- What one rounding below 2^22 costs. -/
def roundoff : ℚ :=
  2 ^ 22 / 2 ^ 54

/-- The exact coordinate `q` is at most `m` kilometres, and `x` is `q` but for `k`
roundings. -/
structure Coordinate (x : Binary64) (q k m : ℚ) : Prop where
  near : x.Near q (k * roundoff)
  size : |q| ≤ m * 10 ^ 6

namespace Coordinate

variable {a b : Binary64} {p q k l m n : ℚ}

theorem neg (h : Coordinate a q k m) : Coordinate (-a) (-q) k m where
  near := h.near.neg
  size := by
    rw [abs_neg]
    exact h.size

theorem add (ha : Coordinate a p k m) (hb : Coordinate b q l n) (hcount : k + l ≤ 100)
    (hsize : m + n ≤ 4) : Coordinate (a + b) (p + q) (k + l + 1) (m + n) where
  near := by
    have hcost : k * roundoff + l * roundoff ≤ 1 := by
      rw [roundoff]
      linarith
    have hsum := abs_add_le p q
    have hnear := ha.near.add hb.near (by decide : 22 ≤ 1023) (by linarith [ha.size, hb.size])
    apply hnear.mono
    rw [roundoff]
    linarith
  size := by
    have hsum := abs_add_le p q
    linarith [ha.size, hb.size]

theorem sub (ha : Coordinate a p k m) (hb : Coordinate b q l n) (hcount : k + l ≤ 100)
    (hsize : m + n ≤ 4) : Coordinate (a - b) (p - q) (k + l + 1) (m + n) := by
  rw [sub_eq_add_neg]
  exact ha.add hb.neg hcount hsize

/-- Four roundings and two halvings stay below 10^-9. -/
theorem accurate (h : Coordinate a q k m) (hcount : k ≤ 17 / 4) : a.Near q (1 / 10 ^ 9) := by
  apply h.near.mono
  rw [roundoff]
  linarith

end Coordinate

/-! ### The coordinates of a tape -/

theorem coordinate_self {x : Binary64} (hx : x.isFinite) (hsize : |x.toRat| ≤ 10 ^ 6) :
    Coordinate x x.toRat 0 1 where
  near := by
    rw [zero_mul]
    exact near_self hx
  size := by
    rw [one_mul]
    exact hsize

variable {s : TapeSpec} (h : s.Dimensioned) (hsize : s.WithinKilometre)
include h hsize

theorem abs_length_le {v : Binary64} (hv : v ∈ s.lengthValues) : |v.toRat| ≤ 10 ^ 6 := by
  rw [abs_of_nonneg (toRat_nonneg (h.length hv).2)]
  exact hsize.lengths v hv

theorem coordinate_length {v : Binary64} (hv : v ∈ s.lengthValues) : Coordinate v v.toRat 0 1 :=
  coordinate_self (h.length hv).1 (abs_length_le h hsize hv)

/-- Half a length is so small that its rounding costs an eighth of the others. -/
theorem coordinate_half {v : Binary64} (hv : v ∈ s.lengthValues) :
    Coordinate (v / 2) (v.toRat / 2) (1 / 8) (1 / 2) := by
  have habs : |v.toRat / 2| ≤ 1 / 2 * 10 ^ 6 := by
    have hle := abs_length_le h hsize hv
    rw [abs_div, abs_two]
    linarith
  refine ⟨?_, habs⟩
  apply (near_half (h.length hv).1 (by decide : 19 ≤ 1023) (by linarith)).mono
  norm_num [roundoff]

theorem coordinate_pitch {x : Binary64} (hx : x.isFinite) {c : Nat} (hc : x.toRat = c)
    (hle : c ≤ s.partCount + 1) :
    Coordinate (s.tapePitch * x) (s.tapePitch.toRat * c) 1 1 := by
  have hnonneg : 0 ≤ s.tapePitch.toRat := toRat_nonneg h.tapePitch.2
  have hcount : (c : ℚ) ≤ s.partCount + 1 := by exact_mod_cast hle
  have habs : |s.tapePitch.toRat * c| ≤ 1 * 10 ^ 6 := by
    rw [abs_of_nonneg (by positivity), one_mul]
    exact (mul_le_mul_of_nonneg_left hcount hnonneg).trans hsize.run
  refine ⟨?_, habs⟩
  rw [← hc] at habs ⊢
  rw [one_mul, roundoff]
  apply near_mul h.tapePitch.1 hx (by decide)
  linarith

theorem coordinate_runLength :
    Coordinate s.runLength (s.tapePitch.toRat * (s.partCount + 1)) 1 1 := by
  have hcount : s.partCount + 1 ≤ 2 ^ 53 := by
    have := h.partCount
    omega
  have hrun := coordinate_pitch h hsize (isFinite_ofNat_add_one hcount) (c := s.partCount + 1)
    (by rw [toRat_ofNat_add_one hcount, Nat.cast_succ]) le_rfl
  rw [Nat.cast_succ] at hrun
  exact hrun

theorem coordinate_start {i : Nat} (hi : i ≤ s.partCount) :
    Coordinate (s.originY + s.pitchOffset i) (s.originY.toRat + s.tapePitch.toRat * i)
      (0 + 1 + 1) (1 + 1) := by
  have hcount : i ≤ 2 ^ 53 := by
    have := h.partCount
    omega
  have hpitch := coordinate_pitch h hsize (h.isFinite_ofNat hi) (toRat_ofNat hcount) (by omega)
  exact (coordinate_self h.originY hsize.originY).add hpitch (by norm_num) (by norm_num)

theorem coordinate_holes :
    Coordinate (s.originX + s.holeEdgeDistance) (s.originX.toRat + s.holeEdgeDistance.toRat)
      (0 + 0 + 1) (1 + 1) :=
  (coordinate_self h.originX hsize.originX).add
    (coordinate_length h hsize (by simp [lengthValues])) (by norm_num) (by norm_num)

/-! ### The lines of a tape -/

variable (f : NumberFormat)

theorem lineNear_outline :
    LineNear (1 / 2 / 10 ^ f.decimals + 1 / 10 ^ 9) s.exactOutline
      ((Statement.rect s.outline).render f) := by
  have hx := coordinate_self h.originX hsize.originX
  have hy := coordinate_self h.originY hsize.originY
  have hwidth := coordinate_length h hsize (v := s.tapeWidth) (by simp [lengthValues])
  have hmaxX := hx.add hwidth (by norm_num) (by norm_num)
  have hmaxY := hy.add (coordinate_runLength h hsize) (by norm_num) (by norm_num)
  apply LineNear.rect
  · exact f.pointNear_pointText ⟨hx.accurate (by norm_num), hy.accurate (by norm_num)⟩
  · exact f.pointNear_pointText ⟨hmaxX.accurate (by norm_num), hmaxY.accurate (by norm_num)⟩

theorem lineNear_hole {i : Nat} (hi : i ≤ s.partCount) :
    LineNear (1 / 2 / 10 ^ f.decimals + 1 / 10 ^ 9) (s.exactHole i)
      ((Statement.circle (s.hole i).centre (s.hole i).edge).render f) := by
  have hx := coordinate_holes h hsize
  have hradius := coordinate_half h hsize (v := s.holeDiameter) (by simp [lengthValues])
  have hpitch := coordinate_half h hsize (v := s.tapePitch) (by simp [lengthValues])
  have hedge := hx.add hradius (by norm_num) (by norm_num)
  have hy := (coordinate_start h hsize hi).add hpitch (by norm_num) (by norm_num)
  apply LineNear.circle
  · exact f.pointNear_pointText ⟨hx.accurate (by norm_num), hy.accurate (by norm_num)⟩
  · exact f.pointNear_pointText ⟨hedge.accurate (by norm_num), hy.accurate (by norm_num)⟩

theorem lineNear_part {i : Nat} (hi : i ≤ s.partCount) :
    LineNear (1 / 2 / 10 ^ f.decimals + 1 / 10 ^ 9) (s.exactPart i)
      ((Statement.rect (s.part i)).render f) := by
  have hoffset := coordinate_length h hsize (v := s.partHoleOffset) (by simp [lengthValues])
  have hpitch := coordinate_length h hsize (v := s.tapePitch) (by simp [lengthValues])
  have hx := (coordinate_holes h hsize).add hoffset (by norm_num) (by norm_num)
  have hy := (coordinate_start h hsize hi).add hpitch (by norm_num) (by norm_num)
  have hacross := coordinate_half h hsize (v := s.partHeight) (by simp [lengthValues])
  have halong := coordinate_half h hsize (v := s.partWidth) (by simp [lengthValues])
  have hminX := hx.sub hacross (by norm_num) (by norm_num)
  have hminY := hy.sub halong (by norm_num) (by norm_num)
  have hmaxX := hx.add hacross (by norm_num) (by norm_num)
  have hmaxY := hy.add halong (by norm_num) (by norm_num)
  apply LineNear.rect
  · exact f.pointNear_pointText ⟨hminX.accurate (by norm_num), hminY.accurate (by norm_num)⟩
  · exact f.pointNear_pointText ⟨hmaxX.accurate (by norm_num), hmaxY.accurate (by norm_num)⟩

omit h hsize

/-- Up to a kilometre every number of a drawing line is within half a unit of its last
decimal, and 10^-9, of the exact value of its formula. -/
theorem shapeLines_accurate {layers : LayerMap} {records : List Record}
    (hdraw : s.draw layers = .ok records) (hsize : s.WithinKilometre) (f : NumberFormat) :
    List.Forall₂ (LineNear (1 / 2 / 10 ^ f.decimals + 1 / 10 ^ 9)) s.exactShapes
      (shapeLines (Script.render f [records])) := by
  obtain ⟨hvalid, rfl⟩ := draw_eq_ok_iff.1 hdraw
  have h := (valid_iff.1 hvalid).1
  rw [Script.shapeLines_render, List.flatten_singleton, records, exactShapes, List.map_cons,
    List.map_append, List.map_map, List.map_map]
  apply List.Forall₂.cons
  · exact lineNear_outline h hsize f
  apply List.rel_append
  · rw [List.forall₂_map_left_iff, List.forall₂_map_right_iff, List.forall₂_same]
    intro i hi
    exact lineNear_hole h hsize f (List.mem_range.1 hi).le
  · rw [List.forall₂_map_left_iff, List.forall₂_map_right_iff, List.forall₂_same]
    intro i hi
    exact lineNear_part h hsize f (List.mem_range.1 hi).le

def chipReel : TapeSpec where
  originX := 0
  originY := 0
  tapeWidth := 8
  tapePitch := 4
  holeEdgeDistance := 1.75
  holeDiameter := 1.5
  partHoleOffset := 3.5
  partWidth := 2.032
  partHeight := 1.27
  partCount := 10

theorem shapeLines_accurate_chipReel :
    chipReel.WithinKilometre ∧ ∃ records, chipReel.draw .standard = .ok records ∧
      List.Forall₂ (LineNear (1 / 2 / 10 ^ NumberFormat.standard.decimals + 1 / 10 ^ 9))
        chipReel.exactShapes (shapeLines (Script.render .standard [records])) := by
  have hsize : chipReel.WithinKilometre :=
    ⟨by decide +kernel, by decide +kernel, by decide +kernel, by decide +kernel⟩
  have hdraw : chipReel.draw .standard = .ok (chipReel.records .standard) :=
    draw_eq_ok_iff.2 ⟨by decide +kernel, rfl⟩
  exact ⟨hsize, _, hdraw, shapeLines_accurate hdraw hsize .standard⟩

end TapeSpec

end CarrierTape
