import CarrierTape.Proofs.Decimal.Stable
import CarrierTape.Proofs.Json.Printer
import CarrierTape.Proofs.Length.Numbers

/-!
Printed numbers are lengths, and their texts are stable: what is read from such a text is printed
as this text again (`printed_stable`). The texts of a script have no unit and are read as
millimetres; the text of a length names its own unit.
-/

namespace CarrierTape.Length

open Decimal Json

theorem parse_numeral {n : Numeral} {letters : List Char} {units : LengthUnit}
    (hwhole : WholeDigits n.whole) (hfraction : ∀ c ∈ n.fraction, c.isDigit)
    (hunits : Names letters units) :
    parse (String.ofList (n.text ++ letters)) = .ok ⟨n.nearest, units⟩ := by
  have hparse := parse_numberWritten (numberWritten_text hwhole hfraction)
    (List.forall_mem_nil _) hunits
  rwa [List.nil_append] at hparse

theorem parse_canonical {n : Numeral} {places : ℕ} (h : n.Canonical places) :
    parse (String.ofList n.text) = .ok (millimetres n.nearest) := by
  have hparse := parse_numeral ⟨h.wholeDigits, h.whole, h.leading⟩ h.fractionDigits
    (.inr ⟨rfl, rfl⟩)
  rwa [List.append_nil] at hparse

theorem parse_padded (places : ℕ) (negative : Bool) (n : ℕ) (units : LengthUnit) :
    parse (String.ofList (Fixed.paddedNumeral places negative n).text ++ units.shortName) =
      .ok ⟨(Fixed.paddedNumeral places negative n).nearest, units⟩ := by
  have hparse := parse_numeral (n := Fixed.paddedNumeral places negative n)
    (wholeDigits_toDigits _) (fun c hc => Fixed.isDigit_of_mem_fractionDigits hc)
    (names_shortName units)
  rwa [String.ofList_append, String.ofList_toList] at hparse

/-- Both texts of a finite number, without a unit and with one, are read as a finite number in
millimetres or that unit, and this number has the same text. -/
theorem printed_stable (f : NumberFormat) (units : LengthUnit) {x : Binary64} (hx : x.isFinite) :
    (∃ y, parse (String.ofList (f.format x)) = .ok ⟨y, .millimetre⟩ ∧ y.isFinite ∧
      f.format y = f.format x) ∧
    ∃ y, parse (text ⟨x, units⟩) = .ok ⟨y, units⟩ ∧ y.isFinite ∧
      text ⟨y, units⟩ = text ⟨x, units⟩ := by
  obtain ⟨n, hcanonical, hformat, hfinite, hsame⟩ := Fixed.stripped_nearest f.decimals hx
  obtain ⟨negative, k, htext, hfinite', hsame'⟩ := Fixed.padded_nearest 3 hx
  refine ⟨⟨n.nearest, ?_, hfinite, hsame⟩,
    (Fixed.paddedNumeral 3 negative k).nearest, ?_, hfinite', ?_⟩
  · rw [NumberFormat.format, hformat]
    exact parse_canonical hcanonical
  · rw [text, htext]
    exact parse_padded 3 negative k units
  · rw [text, text, hsame']

/-- A tie, printed as the even number below it. -/
theorem printed_stable_tie : (-0.0625 : Binary64).isFinite ∧
    (NumberFormat.ofDecimals 3).format (-0.0625) = "-0.062".toList ∧
    (∃ y, parse "-0.062" = .ok ⟨y, .millimetre⟩ ∧
      (NumberFormat.ofDecimals 3).format y = "-0.062".toList) ∧
    ∃ y, parse "-0.062in" = .ok ⟨y, .inch⟩ ∧ text ⟨y, .inch⟩ = "-0.062in" := by
  have hx : (-0.0625 : Binary64).isFinite := by decide +kernel
  have hformat : (NumberFormat.ofDecimals 3).format (-0.0625) = "-0.062".toList := by
    decide +kernel
  have htext : text ⟨-0.0625, .inch⟩ = "-0.062in" := by decide +kernel
  obtain ⟨⟨y, hy, -, hsame⟩, z, hz, -, hsame'⟩ :=
    printed_stable (NumberFormat.ofDecimals 3) .inch hx
  rw [hformat] at hy hsame
  rw [htext] at hz hsame'
  exact ⟨hx, hformat, ⟨y, hy, hsame⟩, z, hz, hsame'⟩

end CarrierTape.Length
