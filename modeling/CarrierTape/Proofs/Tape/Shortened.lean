import CarrierTape.Proofs.Binary64.Error
import CarrierTape.Proofs.Tape.Coordinates

/-!
Tapes that differ in nothing but the count of pockets. Where a hole or a part lies depends on
its index and not on the count, so only the checks need an argument: the outermost coordinates
of the shorter tape lie between the origin and those of the longer one. Pockets taken off the
end of a valid tape leave a valid one, and all that stays is drawn as before
(`draw_withPartCount`).
-/

namespace CarrierTape.TapeSpec

open Binary64

variable {s : TapeSpec} {m : Nat}

theorem outline_max_x (s : TapeSpec) : s.outline.max.x = s.originX + s.tapeWidth := rfl

theorem outline_max_y (s : TapeSpec) : s.outline.max.y = s.originY + s.runLength := rfl

/-! ### The shorter tape lies within the longer one -/

theorem Dimensioned.withPartCount (h : s.Dimensioned) (hm : m ≤ s.partCount) :
    (s.withPartCount m).Dimensioned :=
  ⟨h.originX, h.originY, h.lengths, hm.trans h.partCount⟩

theorem Dimensioned.isFinite_intervals (h : s.Dimensioned) :
    (Binary64.ofNat s.partCount + 1).isFinite := by
  have hcount := h.partCount
  exact isFinite_ofNat_add_one (by omega)

theorem Dimensioned.runLength_nonneg (h : s.Dimensioned) : 0 ≤ s.runLength := by
  obtain ⟨hpitch, hpitch0⟩ := h.tapePitch
  have hone : (0 : Binary64) ≤ Binary64.ofNat s.partCount + 1 :=
    Binary64.le_trans (ofNat_nonneg s.partCount)
      (Binary64.le_add_of_nonneg (h.isFinite_ofNat le_rfl) (ofNat_nonneg 1))
  exact Binary64.mul_nonneg hpitch0 hpitch hone h.isFinite_intervals

theorem Dimensioned.runLength_mono (h : s.Dimensioned) (hm : m ≤ s.partCount) :
    (s.withPartCount m).runLength ≤ s.runLength := by
  obtain ⟨hpitch, hpitch0⟩ := h.tapePitch
  refine Binary64.mul_le_mul_left hpitch0 hpitch (h.withPartCount hm).isFinite_intervals
    h.isFinite_intervals ?_
  exact Binary64.add_le_add_right (Binary64.isFinite_ofNat (n := 1) (by decide)) (ofNat_mono hm)

theorem Dimensioned.outline_max_y_mono (h : s.Dimensioned) (hm : m ≤ s.partCount) :
    (s.withPartCount m).outline.max.y ≤ s.outline.max.y := by
  rw [outline_max_y, outline_max_y]
  exact Binary64.add_le_add_left h.originY (h.runLength_mono hm)

/-- The outline of the shorter tape ends between the origin and the longer one's end. -/
theorem Dimensioned.isFinite_outline_max (h : s.Dimensioned) (hm : m ≤ s.partCount)
    (hmax : s.outline.max.Finite) : (s.withPartCount m).outline.max.Finite := by
  refine ⟨?_, ?_⟩
  · have hwidth := hmax.1
    rw [outline_max_x] at hwidth ⊢
    exact hwidth
  · have hlow : s.originY ≤ (s.withPartCount m).outline.max.y := by
      rw [outline_max_y]
      exact Binary64.le_add_of_nonneg h.originY (h.withPartCount hm).runLength_nonneg
    exact isFinite_of_le_of_le hlow (h.outline_max_y_mono hm) h.originY hmax.2

/-- The last part of the shorter tape lies between its own interval and the longer one's last
part. -/
theorem Dimensioned.partsPlaced_mono (h : s.Dimensioned) {k last : Nat} (hk : k ≤ last)
    (hlast : last ≤ s.partCount) (hparts : s.PartsPlaced last) : s.PartsPlaced k where
  centreX := hparts.centreX
  minX := hparts.minX
  maxX := hparts.maxX
  lastY := (isFinite_of_isFinite_add (h.isFinite_part hk hlast hparts).2.2).1
  minY := hparts.minY
  maxY := (h.isFinite_part hk hlast hparts).2.2

theorem Valid.withPartCount (h : s.Valid) (hm : m ≤ s.partCount) : (s.withPartCount m).Valid := by
  rw [valid_iff, forall_extremes_iff] at h ⊢
  obtain ⟨hdim, hhole, hmax, hparts⟩ := h
  refine ⟨hdim.withPartCount hm, hhole, hdim.isFinite_outline_max hm hmax, ?_⟩
  intro k hk
  have hlast : s.partCount = (s.partCount - 1) + 1 := by
    change m = k + 1 at hk
    omega
  have hplaced := hdim.partsPlaced_mono (k := k) (by change m = k + 1 at hk; omega)
    (Nat.sub_le _ 1) (hparts _ hlast)
  -- no coordinate of a part depends on the count
  exact ⟨hplaced.centreX, hplaced.minX, hplaced.maxX, hplaced.lastY, hplaced.minY, hplaced.maxY⟩

/-! ### Records by the index of their pocket -/

theorem getElem?_records_hole (layers : LayerMap) {i : Nat} (hi : i < s.partCount) :
    (s.records layers)[1 + i]? = some (s.holeRecord layers i) := by
  simp [records, Nat.add_comm 1 i, List.getElem?_append_left, hi]

theorem getElem?_records_part (layers : LayerMap) {i : Nat} (hi : i < s.partCount) :
    (s.records layers)[1 + s.partCount + i]? = some (s.partRecord layers i) := by
  have hindex : 1 + s.partCount + i = (s.partCount + i) + 1 := by omega
  simp [records, hindex, hi]

/-- Pockets can be taken off the end of a valid tape: it stays valid, its outline keeps its
first corner and its width and gets no longer, and every hole and every part that is left is
drawn on the same layer in the same place. -/
theorem draw_withPartCount (hs : s.Valid) (hm : m ≤ s.partCount) (layers : LayerMap) :
    (s.withPartCount m).Valid ∧
    ∃ records fewer, s.draw layers = .ok records ∧ (s.withPartCount m).draw layers = .ok fewer ∧
      records.length = 1 + 2 * s.partCount ∧ fewer.length = 1 + 2 * m ∧
      (∃ outline shorter, records[0]? = some ⟨.outline, layers.tapeBody, .rect outline⟩ ∧
        fewer[0]? = some ⟨.outline, layers.tapeBody, .rect shorter⟩ ∧
        shorter.min = outline.min ∧ shorter.max.x = outline.max.x ∧
        shorter.max.y ≤ outline.max.y) ∧
      ∀ i < m, ∃ hole part,
        records[1 + i]? = some ⟨.hole, layers.holes, .circle hole⟩ ∧
        fewer[1 + i]? = some ⟨.hole, layers.holes, .circle hole⟩ ∧
        records[1 + s.partCount + i]? = some ⟨.part, layers.partLayer, .rect part⟩ ∧
        fewer[1 + m + i]? = some ⟨.part, layers.partLayer, .rect part⟩ := by
  have hvalid := hs.withPartCount hm
  have hdim := (valid_iff.1 hs).1
  refine ⟨hvalid, _, _, draw_eq_ok_iff.2 ⟨hs, rfl⟩, draw_eq_ok_iff.2 ⟨hvalid, rfl⟩,
    length_records layers s, length_records layers _, ?_, ?_⟩
  · refine ⟨_, _, rfl, rfl, rfl, ?_, hdim.outline_max_y_mono hm⟩
    rw [outline_max_x, outline_max_x]
    rfl
  · intro i hi
    have hlonger : i < s.partCount := hi.trans_le hm
    exact ⟨s.hole i, s.part i, getElem?_records_hole layers hlonger,
      getElem?_records_hole (s := s.withPartCount m) layers hi,
      getElem?_records_part layers hlonger,
      getElem?_records_part (s := s.withPartCount m) layers hi⟩

/-- Five pockets so far from zero that numbers there are four pitches apart. -/
def fineTape : TapeSpec where
  originX := 0
  originY := -10000000000000000
  tapeWidth := 8
  tapePitch := 0.5
  holeEdgeDistance := 1.75
  holeDiameter := 1.5
  partHoleOffset := 3.5
  partWidth := 0.6
  partHeight := 0.3
  partCount := 5

theorem draw_withPartCount_fineTape :
    fineTape.Valid ∧ 2 ≤ fineTape.partCount ∧ (fineTape.withPartCount 2).Valid ∧
      ∃ records fewer, fineTape.draw .standard = .ok records ∧
        (fineTape.withPartCount 2).draw .standard = .ok fewer ∧
        fewer[2]? = records[2]? ∧ fewer[4]? = records[7]? := by
  have hs : fineTape.Valid := by decide +kernel
  have hm : 2 ≤ fineTape.partCount := by decide
  obtain ⟨hvalid, records, fewer, hdraw, hfewer, -, -, -, hsame⟩ :=
    draw_withPartCount hs hm .standard
  obtain ⟨hole, part, hhole, hhole', hpart, hpart'⟩ := hsame 1 (by decide)
  exact ⟨hs, hm, hvalid, records, fewer, hdraw, hfewer, hhole'.trans hhole.symm,
    hpart'.trans hpart.symm⟩

end CarrierTape.TapeSpec
