import CarrierTape.Proofs.Job.Placement
import CarrierTape.Proofs.Tape.CountFromNumber

/-!
Chip codes beside sizes. A code is read before the sizes are looked at, so an entry that gives
both sizes takes none of them from the code and is still refused for a code that cannot be
read, unless the width of its tape is wrong already. Only for codes that can be read does the
code not matter (`resolve_part_irrelevant_iff`).
-/

namespace CarrierTape

namespace Standard

/-- Four digits, with blanks around them or not. -/
def IsChipCode (code : String) : Prop :=
  (Text.trim code.toList).length = 4 ∧ (Text.trim code.toList).all Char.isDigit

instance (code : String) : Decidable (IsChipCode code) :=
  inferInstanceAs (Decidable (_ ∧ _))

theorem exists_chipSize {code : String} (h : IsChipCode code) :
    ∃ size, chipSize code = .ok size := by
  obtain ⟨hlength, hdigits⟩ := h
  rw [chipSize]
  match hcode : Text.trim code.toList with
  | [a, b, c, d] =>
    rw [hcode] at hdigits
    exact ⟨_, if_pos hdigits⟩
  | [] | [_] | [_, _] | [_, _, _] | _ :: _ :: _ :: _ :: _ :: _ =>
    rw [hcode] at hlength
    simp at hlength

theorem chipSize_of_not {code : String} (h : ¬ IsChipCode code) :
    chipSize code = .error (.invalidChipCode (String.ofList (Text.trim code.toList))) := by
  rw [chipSize]
  split
  case h_1 a b c d hcode =>
    have hlength : (Text.trim code.toList).length = 4 := congrArg List.length hcode
    exact if_neg fun hdigits => h ⟨hlength, hdigits⟩
  case h_2 => rfl

end Standard

namespace TapeEntry

variable {e : TapeEntry} {width height : Length} {code : String}

def withPart (e : TapeEntry) (part : Option String) : TapeEntry :=
  { e with part }

/-- With both sizes given, the code is read for its error alone. -/
theorem resolve_of_sizes (hwidth : e.partWidth = some width) (hheight : e.partHeight = some height)
    (x : Binary64) :
    e.resolve x = (do
      let (tapeWidth, offset) ← e.widthAndOffset
      let _ ← e.chip
      let n ← (partCountOf e.partCount).mapError .tape
      (e.assembled x tapeWidth offset width height n).validate.mapError .tape) := by
  have hrequired (value : Missing) (given : Length) (fromChip : Option Length) :
      required value (some given) fromChip = .ok given := rfl
  simp only [resolve, hwidth, hheight, hrequired, ok_bind]
  rfl

theorem resolve_withPart_of_isChipCode (hwidth : e.partWidth = some width)
    (hheight : e.partHeight = some height) (hcode : Standard.IsChipCode code) (x : Binary64) :
    (e.withPart (some code)).resolve x = (e.withPart none).resolve x := by
  obtain ⟨size, hsize⟩ := Standard.exists_chipSize hcode
  have hchip : (e.withPart (some code)).chip = .ok (some size) := by
    simp only [chip, withPart, hsize]
    rfl
  rw [resolve_of_sizes (e := e.withPart (some code)) hwidth hheight,
    resolve_of_sizes (e := e.withPart none) hwidth hheight, hchip]
  rfl

theorem resolve_withPart_of_not (hcode : ¬ Standard.IsChipCode code)
    {found : Binary64 × Binary64} (hfound : e.widthAndOffset = .ok found) (x : Binary64) :
    (e.withPart (some code)).resolve x =
      .error (.tape (.invalidChipCode (String.ofList (Text.trim code.toList)))) := by
  have hchip : (e.withPart (some code)).chip =
      .error (.tape (.invalidChipCode (String.ofList (Text.trim code.toList)))) := by
    simp only [chip, withPart, Standard.chipSize_of_not hcode]
    rfl
  have hsame : (e.withPart (some code)).widthAndOffset = .ok found := hfound
  simp only [resolve, hsame, hchip, ok_bind, error_bind]

theorem resolve_withPart_none_ne (hwidth : e.partWidth = some width)
    (hheight : e.partHeight = some height) {found : Binary64 × Binary64}
    (hfound : e.widthAndOffset = .ok found) (x : Binary64) (text : String) :
    (e.withPart none).resolve x ≠ .error (.tape (.invalidChipCode text)) := by
  obtain ⟨tapeWidth, offset⟩ := found
  have hsame : (e.withPart none).widthAndOffset = .ok (tapeWidth, offset) := hfound
  have hchip : (e.withPart none).chip = .ok none := rfl
  have hcount : (e.withPart none).partCount = e.partCount := rfl
  rw [resolve_of_sizes (e := e.withPart none) hwidth hheight]
  simp only [hsame, hchip, ok_bind, hcount]
  cases hparts : partCountOf e.partCount with
  | error error =>
    obtain ⟨problem, rfl⟩ := exists_of_partCountOf hparts
    rw [mapError_error, error_bind]
    exact nofun
  | ok n =>
    rw [mapError_ok, ok_bind]
    rcases ((e.withPart none).assembled x tapeWidth offset width height n).valid_or_blamed with
      hvalid | ⟨parameter, problem, hblame⟩
    · rw [TapeSpec.validate_eq_ok_iff.2 ⟨hvalid, rfl⟩, mapError_ok]
      exact nofun
    · rw [hblame, mapError_error]
      exact nofun

/-- Of an entry that gives both sizes, the code does not matter exactly if it can be read, or
if nothing is said of it because the width of the tape is wrong. Otherwise the entry is refused
for its code, with sizes or without. -/
theorem resolve_part_irrelevant_iff (hwidth : e.partWidth = some width)
    (hheight : e.partHeight = some height) (code : String) (index : Nat) (x : Binary64) :
    ((e.withPart (some code)).resolveAt index x = (e.withPart none).resolveAt index x ↔
      Standard.IsChipCode code ∨ ∃ error, e.widthAndOffset = .error error) ∧
    (¬ Standard.IsChipCode code → ∀ found, e.widthAndOffset = .ok found →
      (e.withPart (some code)).resolveAt index x = .error (.entry index e.label
        (.tape (.invalidChipCode (String.ofList (Text.trim code.toList)))))) := by
  have hlabel (part : Option String) : (e.withPart part).label = e.label := rfl
  have hrefused (hcode : ¬ Standard.IsChipCode code) (found : Binary64 × Binary64)
      (hfound : e.widthAndOffset = .ok found) :
      (e.withPart (some code)).resolveAt index x = .error (.entry index e.label
        (.tape (.invalidChipCode (String.ofList (Text.trim code.toList))))) := by
    rw [resolveAt, resolve_withPart_of_not hcode hfound, mapError_error, hlabel]
  refine ⟨⟨fun hsame => ?_, ?_⟩, hrefused⟩
  · by_contra hnot
    rw [not_or] at hnot
    obtain ⟨hcode, hfine⟩ := hnot
    cases hfound : e.widthAndOffset with
    | error error => exact hfine ⟨error, hfound⟩
    | ok found =>
      -- one side is refused for the code, and the other side has none to be refused for
      rw [hrefused hcode found hfound, resolveAt, hlabel] at hsame
      have hnone := resolve_withPart_none_ne hwidth hheight hfound x
      cases hresolve : (e.withPart none).resolve x with
      | error error =>
        rw [hresolve, mapError_error, Except.error.injEq, JobError.entry.injEq] at hsame
        obtain ⟨-, -, rfl⟩ := hsame
        exact hnone _ hresolve
      | ok s =>
        rw [hresolve, mapError_ok] at hsame
        cases hsame
  · rintro (hcode | ⟨error, herror⟩)
    · rw [resolveAt, resolveAt, resolve_withPart_of_isChipCode hwidth hheight hcode, hlabel, hlabel]
    · rw [resolveAt, resolveAt, resolve_of_widthAndOffset (e := e.withPart (some code)) herror,
        resolve_of_widthAndOffset (e := e.withPart none) herror, hlabel, hlabel]

def namedPart : TapeEntry :=
  { (default : TapeEntry) with
    tapeWidth := some (.millimetres 8)
    tapePitch := .millimetres 4
    part := some "R0805"
    partWidth := some (.millimetres 2)
    partHeight := some (.millimetres 1.25)
    partCount := 1 }

/-- Without a code, or with one of another size, the part is placed as its sizes say. -/
theorem resolve_part_irrelevant_iff_namedPart :
    namedPart.partWidth = some (.millimetres 2) ∧ namedPart.partHeight = some (.millimetres 1.25) ∧
      (namedPart.withPart (some " 2512")).resolveAt 3 0.5 =
        (namedPart.withPart none).resolveAt 3 0.5 ∧
      (namedPart.withPart (some "R0805")).resolveAt 3 0.5 ≠
        (namedPart.withPart none).resolveAt 3 0.5 := by
  have hread : Standard.IsChipCode " 2512" := by decide
  have hname : ¬ (Standard.IsChipCode "R0805" ∨
      ∃ error, namedPart.widthAndOffset = .error error) := by
    rintro (hcode | ⟨error, herror⟩)
    · exact absurd hcode (by decide)
    · have hok : namedPart.widthAndOffset = .ok (8, 3.5) := by decide +kernel
      rw [hok] at herror
      cases herror
  exact ⟨rfl, rfl, (resolve_part_irrelevant_iff rfl rfl " 2512" 3 0.5).1.2 (.inl hread),
    fun hsame => hname ((resolve_part_irrelevant_iff rfl rfl "R0805" 3 0.5).1.1 hsame)⟩

/-- Both sizes are given, and still the tape is refused for what stands in the place of the
code; with no code or with a code of another size the same tape is fine. -/
theorem namedPart_refused :
    namedPart.partWidth.isSome ∧ namedPart.partHeight.isSome ∧
      namedPart.resolveAt 0 0 = .error (.entry 0 "unnamed" (.tape (.invalidChipCode "R0805"))) ∧
      ∃ s, (namedPart.withPart none).resolveAt 0 0 = .ok s ∧
        (namedPart.withPart (some "2512")).resolveAt 0 0 = .ok s := by
  obtain ⟨s, hs⟩ : ∃ s, (namedPart.withPart none).resolveAt 0 0 = .ok s :=
    exists_eq_ok_of_isSome (by decide +kernel)
  have hother : (namedPart.withPart (some "2512")).resolveAt 0 0 =
      (namedPart.withPart none).resolveAt 0 0 := by
    decide +kernel
  exact ⟨rfl, rfl, by decide +kernel, s, hs, hother.trans hs⟩

end TapeEntry

end CarrierTape
