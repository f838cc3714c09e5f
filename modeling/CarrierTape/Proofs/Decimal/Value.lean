import CarrierTape.Json.Number
import CarrierTape.Length.Reader
import Mathlib.Algebra.Order.Field.Rat
import Mathlib.Data.List.TakeWhile

/-!
The exact number that a numeral denotes, and which numerals are read back from
their own text: those with digits before the point and without an exponent
(`readNumeral?_text`).
-/

namespace CarrierTape.Decimal

open Length

namespace Numeral

def toRat (n : Numeral) : ℚ :=
  (if n.negative then -1 else 1) * n.significand * 10 ^ n.scale

/-- Digits, at least one of them before the point, and no exponent. -/
structure Plain (n : Numeral) : Prop where
  whole : n.whole ≠ []
  wholeDigits : ∀ c ∈ n.whole, c.isDigit
  fractionDigits : ∀ c ∈ n.fraction, c.isDigit
  exponent : n.exponent = none

def fractionText (n : Numeral) : List Char :=
  if n.fraction.isEmpty then [] else '.' :: n.fraction

theorem Plain.text_eq {n : Numeral} (h : n.Plain) :
    n.text = Style.sign n.negative ++ (n.whole ++ n.fractionText) := by
  simp [text, fractionText, h.exponent, exponentText]

end Numeral

/-- The exact number written in a text, if the text is a numeral and nothing else. -/
def valueOf? (text : List Char) : Option ℚ :=
  match readNumeral? text with
  | some (n, []) => some n.toRat
  | _ => none

/-- Both texts are numerals, and the number in `a` is at most the one in `b`. -/
def AtMost (a b : List Char) : Prop :=
  ∃ v w, valueOf? a = some v ∧ valueOf? b = some w ∧ v ≤ w

/-- A text that cannot belong to the numeral before it. -/
def Ends (rest : List Char) : Prop :=
  ∀ c ∈ rest.head?, c.isDigit = false ∧ c ≠ '.' ∧ c ≠ 'e' ∧ c ≠ 'E'

theorem ends_nil : Ends [] := by
  simp [Ends]

theorem takeDigits_append {digits rest : List Char} (h : ∀ c ∈ digits, c.isDigit)
    (hrest : ∀ c ∈ rest.head?, c.isDigit = false) :
    Numeral.takeDigits (digits ++ rest) = (digits, rest) := by
  have hstop : rest.takeWhile Char.isDigit = [] ∧ rest.dropWhile Char.isDigit = rest := by
    cases rest with
    | nil => simp
    | cons c cs => simp [hrest c (by simp)]
  rw [Numeral.takeDigits, List.takeWhile_append_of_pos h, List.dropWhile_append_of_pos h,
    hstop.1, hstop.2, List.append_nil]

theorem readSign_append (negative : Bool) {cs : List Char} (h : ∀ c ∈ cs.head?, c.isDigit) :
    readSign (Style.sign negative ++ cs) = (negative, cs) := by
  cases negative with
  | true => rfl
  | false =>
    cases cs with
    | nil => rfl
    | cons c rest =>
      have hdigit : c.isDigit := h c (by simp)
      have hminus : c ≠ '-' := by
        rintro rfl
        exact absurd hdigit (by decide)
      have hplus : c ≠ '+' := by
        rintro rfl
        exact absurd hdigit (by decide)
      simp [Style.sign, readSign, hminus, hplus]

theorem readPlaces?_append {n : Numeral} (h : n.Plain) {rest : List Char} (hrest : Ends rest) :
    readPlaces? (n.whole ++ (n.fractionText ++ rest)) = some (n.whole, n.fraction, rest) := by
  have hdigit : ∀ c ∈ rest.head?, c.isDigit = false := fun c hc => (hrest c hc).1
  unfold readPlaces? Numeral.fractionText
  by_cases hfraction : n.fraction = []
  · have hpoint : ∀ behind, rest ≠ '.' :: behind := by
      rintro behind rfl
      exact (hrest '.' (by simp)).2.1 rfl
    simp [hfraction, takeDigits_append h.wholeDigits hdigit, h.whole]
  · have hwhole : Numeral.takeDigits (n.whole ++ '.' :: (n.fraction ++ rest)) =
        (n.whole, '.' :: (n.fraction ++ rest)) := takeDigits_append h.wholeDigits (by simp)
    simp [hfraction, hwhole, takeDigits_append h.fractionDigits hdigit]

theorem readExponent_ends {rest : List Char} (h : Ends rest) :
    readExponent rest = (none, rest) := by
  cases rest with
  | nil => rfl
  | cons c cs =>
    obtain ⟨-, -, hlower, hupper⟩ := h c (by simp)
    simp [readExponent, hlower, hupper]

/-- A plain numeral is read back, whatever stands behind it that cannot be part of it. -/
theorem readNumeral?_text {n : Numeral} (h : n.Plain) {rest : List Char} (hrest : Ends rest) :
    readNumeral? (n.text ++ rest) = some (n, rest) := by
  have hhead : ∀ c ∈ (n.whole ++ (n.fractionText ++ rest)).head?, c.isDigit := by
    obtain ⟨c, cs, hwhole⟩ := List.exists_cons_of_ne_nil h.whole
    have hdigit : c.isDigit := h.wholeDigits c (by simp [hwhole])
    simpa [hwhole] using hdigit
  have hnumeral : (⟨n.negative, n.whole, n.fraction, none⟩ : Numeral) = n := by
    rw [← h.exponent]
  rw [h.text_eq, List.append_assoc, List.append_assoc, readNumeral?, readSign_append _ hhead]
  simp [readPlaces?_append h hrest, readExponent_ends hrest, hnumeral]

theorem valueOf?_text {n : Numeral} (h : n.Plain) : valueOf? n.text = some n.toRat := by
  have hread := readNumeral?_text h ends_nil
  rw [List.append_nil] at hread
  rw [valueOf?, hread]

end CarrierTape.Decimal
