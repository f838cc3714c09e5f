import CarrierTape.Proofs.Job.Explicit

/-!
Two ways to a standard tape: `Standard.tape`, and an entry that gives the same four lengths
and the count of parts and leaves everything else to the standard. They fill the fields of
the tape by themselves, and end with the same tape or with the same error, whatever the
numbers are (`resolve_standard`). The widths of the table are whole and far enough from
each other that rounding can never make two of them match.
-/

namespace CarrierTape

open Binary64

-- The numbers of the standard are never to be unfolded in search of a match.
attribute [local irreducible] Binary64.ofNat

namespace Standard

/-- An entry of the table whose width is the width of a tape, up to the tolerance. -/
def Matches (tapeWidth : Binary64) (entry : Binary64 × Binary64) : Bool :=
  (entry.1 - tapeWidth).abs < widthTolerance

theorem pocketOffset?_eq (tapeWidth : Binary64) :
    pocketOffset? tapeWidth = (pocketOffsets.find? (Matches tapeWidth)).map (·.2) := rfl

def wholeWidths : List Nat :=
  [8, 12, 16, 24, 32, 44, 56]

theorem map_pocketOffsets : pocketOffsets.map (·.1) = wholeWidths.map .ofNat := rfl

theorem widthTolerance_le_one : widthTolerance ≤ 1 := by
  decide +kernel

theorem pairwise_pocketOffsets (v : Binary64) :
    pocketOffsets.Pairwise fun a b => Matches v a → ¬ Matches v b := by
  -- the widths are whole, so that matches of one number would be less than two apart
  have hapart : wholeWidths.Pairwise fun m n => m ≤ 2 ^ 53 ∧ n ≤ 2 ^ 53 ∧ m + 2 ≤ n := by
    decide
  have hwidths : (pocketOffsets.map (·.1)).Pairwise fun a b =>
      (a - v).abs < widthTolerance → ¬ (b - v).abs < widthTolerance := by
    rw [map_pocketOffsets, List.pairwise_map]
    refine hapart.imp fun ⟨hm, hn, hmn⟩ hnear hnear' => ?_
    exact absurd (lt_add_two_of_abs_sub_lt hm hn widthTolerance_le_one hnear hnear')
      (Nat.not_lt.2 hmn)
  refine (List.pairwise_map.1 hwidths).imp fun hnot hmatch hmatch' => ?_
  exact hnot (of_decide_eq_true hmatch) (of_decide_eq_true hmatch')

theorem length_filter_matches (v : Binary64) : (pocketOffsets.filter (Matches v)).length ≤ 1 := by
  have hpairwise := (pairwise_pocketOffsets v).filter (Matches v)
  match hfilter : pocketOffsets.filter (Matches v) with
  | [] | [_] => simp
  | a :: b :: rest =>
    have hmatch : ∀ entry ∈ a :: b :: rest, Matches v entry := by
      rw [← hfilter]
      exact fun entry hentry => (List.mem_filter.1 hentry).2
    rw [hfilter, List.pairwise_cons] at hpairwise
    exact absurd (hmatch b (by simp)) (hpairwise.1 b (by simp) (hmatch a (by simp)))

theorem pocketOffset?_of_matches {v : Binary64} {entry : Binary64 × Binary64}
    (hentry : entry ∈ pocketOffsets) (hmatch : Matches v entry) :
    pocketOffset? v = some entry.2 := by
  obtain ⟨only, honly⟩ := List.length_eq_one_iff.1 <|
    (length_filter_matches v).antisymm (List.length_pos_of_mem (List.mem_filter.2 ⟨hentry, hmatch⟩))
  have hsame : entry = only := by
    simpa [honly] using List.mem_filter.2 ⟨hentry, hmatch⟩
  rw [pocketOffset?_eq, ← List.head?_filter, honly, hsame]
  rfl

variable {w p a b : Binary64} {n : Nat}

theorem tape_of_none (h : pocketOffset? w = none) :
    tape w p a b n = .error (.unsupportedWidth w) := by
  unfold tape
  rw [h]

theorem tape_of_some {offset : Binary64} (h : pocketOffset? w = some offset) :
    tape w p a b n = .ok ⟨0, 0, w, p, holeEdgeDistance, holeDiameter, offset, a, b, n⟩ := by
  unfold tape
  rw [h]

end Standard

namespace TapeEntry

/-- A tape in millimetres that leaves all it can to the standard. -/
def standard (tapeWidth tapePitch partWidth partHeight : Binary64) (partCount : Nat) :
    TapeEntry where
  name := none
  originX := none
  originY := none
  tapeWidth := some (.millimetres tapeWidth)
  tapePitch := .millimetres tapePitch
  holeEdgeDistance := none
  holeDiameter := none
  partHoleOffset := none
  part := none
  partWidth := some (.millimetres partWidth)
  partHeight := some (.millimetres partHeight)
  partCount := .ofNat partCount

variable (w p a b : Binary64) {n : Nat}

theorem resolve_standard_of_some {offset : Binary64} (hn : n ≤ 1000000)
    (hoffset : Standard.pocketOffset? w = some offset) :
    (standard w p a b n).resolve 0 =
      (TapeSpec.mk 0 0 w p Standard.holeEdgeDistance Standard.holeDiameter offset a b
        n).validate.mapError .tape := by
  have hwidth : (standard w p a b n).widthAndOffset = .ok (w, offset) := by
    simp only [widthAndOffset, standard, Length.toMillimetres_millimetres, hoffset]
  have hcount : partCountOf (standard w p a b n).partCount = .ok n := by
    simp only [standard, partCountOf_ofNat hn]
  have hchip : (standard w p a b n).chip = .ok none := rfl
  rw [resolve_of_parts hwidth hchip rfl rfl hcount]
  simp only [assembled, standard, Option.elim_none, Length.toMillimetres_millimetres]

theorem resolve_standard_eq (hn : n ≤ 1000000) :
    (standard w p a b n).resolve 0 =
      (Standard.tape w p a b n >>= TapeSpec.validate).mapError .tape := by
  cases hoffset : Standard.pocketOffset? w with
  | none =>
    have hwidth : (standard w p a b n).widthAndOffset = .error (.tape (.unsupportedWidth w)) := by
      simp only [widthAndOffset, standard, Length.toMillimetres_millimetres, hoffset]
    rw [resolve_of_widthAndOffset hwidth, Standard.tape_of_none hoffset, error_bind, mapError_error]
  | some offset =>
    rw [resolve_standard_of_some w p a b hn hoffset, Standard.tape_of_some hoffset, ok_bind]

/-- Both ways to a standard tape agree for all numbers, NaN and the infinities among them. The
entry resolves exactly to the standard tape that is valid; and it fails with the error of the
standard tape, or else with that of its validation. No width matches more than one entry of
the table, so it does not matter that the first match is taken. -/
theorem resolve_standard (hn : n ≤ 1000000) :
    (∀ index s, (standard w p a b n).resolveAt index 0 = .ok s ↔
      Standard.tape w p a b n = .ok s ∧ s.validate = .ok s) ∧
    (∀ index error, Standard.tape w p a b n = .error error →
      (standard w p a b n).resolveAt index 0 = .error (.entry index "unnamed" (.tape error))) ∧
    (∀ index s error, Standard.tape w p a b n = .ok s → s.validate = .error error →
      (standard w p a b n).resolveAt index 0 = .error (.entry index "unnamed" (.tape error))) ∧
    ∀ v, (Standard.pocketOffsets.filter (Standard.Matches v)).length ≤ 1 ∧
      ∀ entry ∈ Standard.pocketOffsets, Standard.Matches v entry →
        Standard.pocketOffset? v = some entry.2 := by
  have hresolve (index : Nat) : (standard w p a b n).resolveAt index 0 =
      ((Standard.tape w p a b n >>= TapeSpec.validate).mapError EntryError.tape).mapError
        (.entry index "unnamed") := by
    rw [resolveAt, resolve_standard_eq w p a b hn]
    rfl
  refine ⟨fun index s => ?_, fun index error htape => ?_, fun index s error htape hvalidate => ?_,
    fun v => ⟨Standard.length_filter_matches v, fun entry => Standard.pocketOffset?_of_matches⟩⟩
  · rw [hresolve, mapError_eq_ok_iff, mapError_eq_ok_iff, bind_eq_ok_iff]
    constructor
    · rintro ⟨t, htape, hvalidate⟩
      obtain ⟨hvalid, rfl⟩ := TapeSpec.validate_eq_ok_iff.1 hvalidate
      exact ⟨htape, hvalidate⟩
    · rintro ⟨htape, hvalidate⟩
      exact ⟨s, htape, hvalidate⟩
  · rw [hresolve, htape, error_bind, mapError_error, mapError_error]
  · rw [hresolve, htape, ok_bind, hvalidate, mapError_error, mapError_error]

/-- A width a little off the standard one is kept as it is, and a width that is no number has
no pockets in either way. -/
theorem resolve_standard_near :
    10 ≤ 1000000 ∧
      (∃ s, Standard.tape 8.0000009 4 2 1.25 10 = .ok s ∧
        (standard 8.0000009 4 2 1.25 10).resolveAt 5 0 = .ok s) ∧
      (standard .nan 4 2 1.25 10).resolveAt 7 0 =
        .error (.entry 7 "unnamed" (.tape (.unsupportedWidth .nan))) := by
  obtain ⟨s, hs⟩ : ∃ s, Standard.tape 8.0000009 4 2 1.25 10 = .ok s :=
    exists_eq_ok_of_isSome (by decide +kernel)
  have hvalid : (Standard.tape 8.0000009 4 2 1.25 10 >>= TapeSpec.validate) =
      Standard.tape 8.0000009 4 2 1.25 10 := by
    decide +kernel
  rw [hs, ok_bind] at hvalid
  have hnan : Standard.tape .nan 4 2 1.25 10 = .error (.unsupportedWidth .nan) := by
    decide +kernel
  exact ⟨by decide,
    ⟨s, hs, ((resolve_standard 8.0000009 4 2 1.25 (by decide)).1 5 s).2 ⟨hs, hvalid⟩⟩,
    (resolve_standard .nan 4 2 1.25 (by decide)).2.1 7 _ hnan⟩

end TapeEntry

end CarrierTape
