import CarrierTape.Proofs.Binary64.Arithmetic
import CarrierTape.Script.NumberFormat
import Mathlib.Data.List.TakeWhile

/-!
The characters of a written number: digits, a sign and a point, or the letters of
the two names that stand for numbers that are not finite. None of them ends a
point, a statement or a line.
-/

namespace CarrierTape

namespace Decimal.Fixed

/-- The characters that numbers are written with. -/
def isNumberChar (c : Char) : Bool :=
  c.isDigit || ['-', '.', 'N', 'a', 'i', 'n', 'f'].contains c

theorem isNumberChar_of_mem_toDigits {c : Char} {n : Nat} (h : c ∈ Nat.toDigits 10 n) :
    isNumberChar c := by
  simp [isNumberChar, Nat.isDigit_of_mem_toDigits (by decide) (by decide) h]

theorem isDigit_of_mem_fractionDigits {c : Char} {places n : Nat}
    (h : c ∈ fractionDigits places n) : c.isDigit := by
  unfold fractionDigits at h
  split at h
  · simp at h
  · rcases List.mem_append.1 h with hpad | hdigit
    · rw [(List.mem_replicate.1 hpad).2]
      decide
    · exact Nat.isDigit_of_mem_toDigits (by decide) (by decide) hdigit

theorem isNumberChar_of_mem_fractionDigits {c : Char} {places n : Nat}
    (h : c ∈ fractionDigits places n) : isNumberChar c := by
  simp [isNumberChar, isDigit_of_mem_fractionDigits h]

theorem mem_of_mem_dropLastZeros {c : Char} {digits : List Char} (h : c ∈ dropLastZeros digits) :
    c ∈ digits := by
  rw [dropLastZeros, List.mem_reverse] at h
  exact List.mem_reverse.1 ((List.dropWhile_suffix _).subset h)

theorem dropLastZeros_eq_nil {digits : List Char} (h : ∀ c ∈ digits, c = '0') :
    dropLastZeros digits = [] := by
  simpa [dropLastZeros, List.dropWhile_eq_nil_iff] using h

theorem mem_join {c : Char} {whole fraction : List Char} (h : c ∈ join whole fraction) :
    c ∈ whole ∨ c = '.' ∨ c ∈ fraction := by
  unfold join at h
  split at h
  · exact Or.inl h
  · simpa using h

theorem mem_sign {c : Char} {negative : Bool} (h : c ∈ Style.sign negative) : c = '-' := by
  unfold Style.sign at h
  split at h <;> simp_all

theorem isNumberChar_of_mem_stripped {c : Char} {places : Nat} {x : Binary64}
    (h : c ∈ stripped places x) : isNumberChar c := by
  cases x with
  | nan =>
    simp only [stripped, Style.render, List.mem_cons, List.not_mem_nil, or_false] at h
    rcases h with rfl | rfl | rfl <;> decide
  | infinite s =>
    simp only [stripped, Style.render, List.mem_append, List.mem_cons, List.not_mem_nil,
      or_false] at h
    rcases h with hsign | rfl | rfl | rfl
    · rw [mem_sign hsign]
      decide
    all_goals decide
  | finite s m hm =>
    simp only [stripped, List.mem_append] at h
    rcases h with hsign | hjoin
    · rw [mem_sign hsign]
      decide
    rcases mem_join hjoin with hwhole | rfl | hfraction
    · exact isNumberChar_of_mem_toDigits hwhole
    · decide
    · exact isNumberChar_of_mem_fractionDigits (mem_of_mem_dropLastZeros hfraction)

theorem dropLastZeros_fractionDigits_zero (places : Nat) :
    dropLastZeros (fractionDigits places 0) = [] := by
  refine dropLastZeros_eq_nil fun c hc => ?_
  unfold fractionDigits at hc
  split at hc
  · simp at hc
  · simp only [Nat.zero_mod, Nat.toDigits_zero] at hc
    rcases List.mem_append.1 hc with hpad | hdigit
    · exact (List.mem_replicate.1 hpad).2
    · simpa using hdigit

theorem join_digits_zero (places : Nat) :
    join (wholeDigits places 0) (dropLastZeros (fractionDigits places 0)) = ['0'] := by
  simp [dropLastZeros_fractionDigits_zero, join, wholeDigits]

theorem stripped_zero (places : Nat) : stripped places 0 = ['0'] := by
  have hcount : count places 0 = 0 := by
    simpa [count] using Binary64.roundQuotient_mul 0 Binary64.unit_pos
  simp [Binary64.zero_eq, Binary64.zero, stripped, hcount, join_digits_zero, Style.sign]

end Decimal.Fixed

namespace NumberFormat

theorem isNumberChar_of_mem_format {f : NumberFormat} {x : Binary64} {c : Char}
    (h : c ∈ f.format x) : Decimal.Fixed.isNumberChar c :=
  Decimal.Fixed.isNumberChar_of_mem_stripped h

theorem format_zero (f : NumberFormat) : f.format 0 = ['0'] :=
  Decimal.Fixed.stripped_zero f.decimals

end NumberFormat

end CarrierTape
