import CarrierTape.Length.Reader
import CarrierTape.Proofs.Binary64.Nearest
import CarrierTape.Proofs.Decimal.Reader
import Mathlib.Data.List.DropRight

/-!
The form of a written length: a numeral, then blanks, then letters. The numeral may use
the decimal digits of any script, but only one in ASCII digits has a value. A text has
this form in one way at most, since no numeral ends in a blank or a letter (`Split.unique`).
`Reads` says what such a text stands for, and why any other is refused.
-/

namespace CarrierTape

/-! ### Digits of all scripts -/

theorem toNat_of_isDigit {c : Char} (h : c.isDigit) : 48 ≤ c.toNat ∧ c.toNat ≤ 57 := by
  simp only [Char.isDigit, Bool.and_eq_true, decide_eq_true_eq, ge_iff_le,
    UInt32.le_iff_toNat_le] at h
  exact h

theorem isBlank_eq_false {c : Char} (hlow : 32 < c.toNat) (hhigh : c.toNat < 128) :
    Text.isBlank c = false := by
  rw [Bool.eq_false_iff]
  intro hblank
  simp only [Text.isBlank, Bool.or_eq_true, Bool.and_eq_true, decide_eq_true_eq,
    beq_iff_eq] at hblank
  omega

/-- The decimal digits that a numeral may consist of. Among the ASCII characters they are
the usual ten. -/
structure DigitClass where
  contains : Char → Bool
  ascii : ∀ c, c.toNat < 128 → contains c = c.isDigit
  notBlank : ∀ c, contains c → Text.isBlank c = false

namespace DigitClass

/-- Where the ten digits of each script start, in the order of the code. -/
def zeros : List Nat :=
  [0x30, 0x660, 0x6F0, 0x7C0, 0x966, 0x9E6, 0xA66, 0xAE6, 0xB66, 0xBE6, 0xC66, 0xCE6, 0xD66, 0xDE6,
    0xE50, 0xED0, 0xF20, 0x1040, 0x1090, 0x17E0, 0x1810, 0x1946, 0x19D0, 0x1A80, 0x1A90, 0x1B50,
    0x1BB0, 0x1C40, 0x1C50, 0xA620, 0xA8D0, 0xA900, 0xA9D0, 0xA9F0, 0xAA50, 0xABF0, 0xFF10, 0x104A0,
    0x10D30, 0x10D40, 0x11066, 0x110F0, 0x11136, 0x111D0, 0x112F0, 0x11450, 0x114D0, 0x11650,
    0x116C0, 0x116D0, 0x116DA, 0x11730, 0x118E0, 0x11950, 0x11BF0, 0x11C50, 0x11D50, 0x11DA0,
    0x11DE0, 0x11F50, 0x16130, 0x16A60, 0x16AC0, 0x16B50, 0x16D70, 0x1CCF0, 0x1D7CE, 0x1D7D8,
    0x1D7E2, 0x1D7EC, 0x1D7F6, 0x1E140, 0x1E2F0, 0x1E4F0, 0x1E5F1, 0x1E950, 0x1FBF0]

/-- The characters with the Unicode property Decimal_Number. -/
def unicode : DigitClass where
  contains c := zeros.any fun start => start ≤ c.toNat && c.toNat < start + 10
  ascii c hc := by
    have hzeros : ∀ n < 128, (zeros.any fun start => start ≤ n && n < start + 10) =
        (Char.ofNat n).isDigit := by decide +kernel
    rw [hzeros c.toNat hc, Char.ofNat_toNat]
  notBlank c hc := by
    have hzeros : ∀ start ∈ zeros, ∀ i < 10, Text.isBlank (Char.ofNat (start + i)) = false := by
      decide +kernel
    obtain ⟨start, hstart, hrange⟩ := List.any_eq_true.1 hc
    simp only [Bool.and_eq_true, decide_eq_true_eq] at hrange
    have hblank := hzeros start hstart (c.toNat - start) (by omega)
    rwa [Nat.add_sub_cancel' hrange.1, Char.ofNat_toNat] at hblank

instance : Inhabited DigitClass :=
  ⟨unicode⟩

end DigitClass

namespace Length

open Decimal

/-! ### Numerals -/

/-- A numeral in its parts, each as it is written. A part that is not there is empty. -/
structure Spelling where
  sign : List Char
  whole : List Char
  point : List Char
  fraction : List Char
  mark : List Char
  exponentSign : List Char
  exponent : List Char

namespace Spelling

def exponentText (s : Spelling) : List Char :=
  s.mark ++ s.exponentSign ++ s.exponent

def text (s : Spelling) : List Char :=
  s.sign ++ s.whole ++ s.point ++ s.fraction ++ s.exponentText

/-- `[+-]?(D+(.D*)?|.D+)([eE][+-]?D+)?` with digits `D`. -/
structure WellFormed (D : DigitClass) (s : Spelling) : Prop where
  sign : IsSign s.sign
  whole : ∀ c ∈ s.whole, D.contains c
  fraction : ∀ c ∈ s.fraction, D.contains c
  places : s.whole ≠ [] ∨ s.fraction ≠ []
  point : s.point = ['.'] ∨ s.point = [] ∧ s.fraction = []
  exponent : s.exponentText = [] ∨
    (s.mark = ['e'] ∨ s.mark = ['E']) ∧ IsSign s.exponentSign ∧ s.exponent ≠ [] ∧
      ∀ c ∈ s.exponent, D.contains c

def Ascii (s : Spelling) : Prop :=
  ∀ c ∈ s.text, c.toNat < 128

def negative (s : Spelling) : Bool :=
  s.sign == ['-']

/-- The exact value without the sign. -/
def magnitude (s : Spelling) : ℚ :=
  Nat.ofDigitChars 10 (s.whole ++ s.fraction) 0 *
    10 ^ (signedValue s.exponentSign s.exponent - s.fraction.length)

end Spelling

/-! ### Lengths -/

/-- A text in three parts: a numeral, blanks, letters. -/
structure Split (D : DigitClass) (text : List Char) (s : Spelling) (blanks letters : List Char) :
    Prop where
  numeral : s.WellFormed D
  isBlank : ∀ c ∈ blanks, Text.isBlank c
  isAlpha : ∀ c ∈ letters, c.isAlpha
  text_eq : text = s.text ++ (blanks ++ letters)

/-- The letters name a unit in any case, or there are none, which means millimetres. -/
def Names (letters : List Char) (units : LengthUnit) : Prop :=
  letters.map Char.toLower = units.shortName.toList ∨ letters = [] ∧ units = .millimetre

/-- What a text stands for. -/
inductive Reads (D : DigitClass) (text : String) : Except LengthError Length → Prop
  | noSplit (h : ∀ s blanks letters, ¬ Split D (Text.trim text.toList) s blanks letters) :
    Reads D text (.error (.invalidNumber text))
  | otherDigit {s : Spelling} {blanks letters : List Char}
    (h : Split D (Text.trim text.toList) s blanks letters) (hdigit : ¬ s.Ascii) :
    Reads D text (.error (.invalidNumber text))
  | unknownUnit {s : Spelling} {blanks letters : List Char}
    (h : Split D (Text.trim text.toList) s blanks letters) (hascii : s.Ascii)
    (hunit : ∀ units, ¬ Names letters units) :
    Reads D text (.error (.unknownUnit (String.ofList letters)))
  | length {s : Spelling} {blanks letters : List Char} {x : Binary64} {units : LengthUnit}
    (h : Split D (Text.trim text.toList) s blanks letters) (hascii : s.Ascii)
    (hvalue : Binary64.NearestTo s.negative s.magnitude x) (hunit : Names letters units) :
    Reads D text (.ok ⟨x, units⟩)

/-! ### One way at most -/

/-- What may follow a numeral. -/
def isTail (c : Char) : Bool :=
  Text.isBlank c || c.isAlpha

theorem toNat_of_isAlpha {c : Char} (h : c.isAlpha) :
    65 ≤ c.toNat ∧ c.toNat ≤ 90 ∨ 97 ≤ c.toNat ∧ c.toNat ≤ 122 := by
  have hcase : c.isUpper || c.isLower := h
  rw [Bool.or_eq_true] at hcase
  refine hcase.imp (fun hupper => ?_) fun hlower => ?_
  · have hrange : 'A'.val ≤ c.val ∧ c.val ≤ 'Z'.val := of_decide_eq_true hupper
    rwa [UInt32.le_iff_toNat_le, UInt32.le_iff_toNat_le] at hrange
  · have hrange : (decide ('a'.val ≤ c.val) && decide (c.val ≤ 'z'.val)) = true := hlower
    rwa [Bool.and_eq_true, decide_eq_true_eq, decide_eq_true_eq, UInt32.le_iff_toNat_le,
      UInt32.le_iff_toNat_le] at hrange

theorem isDigit_eq_false_of_isAlpha {c : Char} (h : c.isAlpha) : c.isDigit = false := by
  have hrange := toNat_of_isAlpha h
  rw [Bool.eq_false_iff]
  intro hdigit
  have := toNat_of_isDigit hdigit
  omega

theorem isTail_of_contains {D : DigitClass} {c : Char} (h : D.contains c) : isTail c = false := by
  rw [isTail, D.notBlank c h, Bool.false_or, Bool.eq_false_iff]
  intro halpha
  have hascii := D.ascii c (by have := toNat_of_isAlpha halpha; omega)
  rw [h, isDigit_eq_false_of_isAlpha halpha] at hascii
  exact Bool.noConfusion hascii

theorem Spelling.WellFormed.exists_last {D : DigitClass} {s : Spelling} (h : s.WellFormed D) :
    ∃ front c, s.text = front ++ [c] ∧ isTail c = false := by
  have hdigits {front digits : List Char} (hne : digits ≠ [])
      (hall : ∀ c ∈ digits, D.contains c) :
      ∃ start c, front ++ digits = start ++ [c] ∧ isTail c = false := by
    refine ⟨front ++ digits.dropLast, digits.getLast hne, ?_, ?_⟩
    · rw [List.append_assoc, List.dropLast_append_getLast hne]
    · exact isTail_of_contains (hall _ (List.getLast_mem hne))
  rcases h.exponent with hnone | ⟨-, -, hne, hall⟩
  · rw [Spelling.text, hnone, List.append_nil]
    by_cases hfraction : s.fraction = []
    · rw [hfraction, List.append_nil]
      rcases h.point with hpoint | ⟨hpoint, -⟩
      · exact ⟨_, '.', by rw [hpoint], by decide⟩
      · rw [hpoint, List.append_nil]
        exact hdigits (h.places.resolve_right (not_not.2 hfraction)) h.whole
    · exact hdigits hfraction h.fraction
  · rw [Spelling.text, Spelling.exponentText, ← List.append_assoc]
    exact hdigits hne hall

theorem rdropWhile_append_tail {front tail : List Char} {c : Char} (hc : isTail c = false)
    (htail : ∀ c ∈ tail, isTail c) :
    (front ++ [c] ++ tail).rdropWhile isTail = front ++ [c] := by
  induction tail using List.reverseRecOn with
  | nil => rw [List.append_nil, List.rdropWhile_concat_neg _ _ _ (by simp [hc])]
  | append_singleton tail x ih =>
    rw [← List.append_assoc, List.rdropWhile_concat_pos _ _ _ (htail x (by simp))]
    exact ih fun y hy => htail y (by simp [hy])

theorem Split.isTail {D : DigitClass} {text : List Char} {s : Spelling}
    {blanks letters : List Char} (h : Split D text s blanks letters) :
    ∀ c ∈ blanks ++ letters, isTail c := by
  intro c hc
  rw [Length.isTail, Bool.or_eq_true]
  exact (List.mem_append.1 hc).imp (h.isBlank c) (h.isAlpha c)

theorem isBlank_eq_false_of_isAlpha {c : Char} (h : c.isAlpha) : Text.isBlank c = false := by
  have hrange := toNat_of_isAlpha h
  exact isBlank_eq_false (by omega) (by omega)

/-- The first part is the text up to its last character that is neither blank nor letter,
and no letter is a blank. -/
theorem Split.unique {D : DigitClass} {text : List Char} {s s' : Spelling}
    {blanks letters blanks' letters' : List Char} (h : Split D text s blanks letters)
    (h' : Split D text s' blanks' letters') :
    s.text = s'.text ∧ blanks = blanks' ∧ letters = letters' := by
  have hnumeral {s : Spelling} {blanks letters : List Char} (h : Split D text s blanks letters) :
      text.rdropWhile Length.isTail = s.text := by
    obtain ⟨front, c, hlast, hc⟩ := h.numeral.exists_last
    rw [h.text_eq, hlast]
    exact rdropWhile_append_tail hc h.isTail
  have hblanks {s : Spelling} {blanks letters : List Char} (h : Split D text s blanks letters) :
      (blanks ++ letters).takeWhile Text.isBlank = blanks := by
    rw [List.takeWhile_append_of_pos h.isBlank]
    cases letters with
    | nil => rw [List.takeWhile_nil, List.append_nil]
    | cons c rest =>
      have hc := isBlank_eq_false_of_isAlpha (h.isAlpha c List.mem_cons_self)
      rw [List.takeWhile_cons_of_neg (by simp [hc]), List.append_nil]
  have htext : s.text = s'.text := (hnumeral h).symm.trans (hnumeral h')
  have hrest : blanks ++ letters = blanks' ++ letters' := by
    have heq := h.text_eq.symm.trans h'.text_eq
    rwa [htext, List.append_cancel_left_eq] at heq
  have hfirst : blanks = blanks' := by rw [← hblanks h, hrest, hblanks h']
  refine ⟨htext, hfirst, ?_⟩
  rwa [hfirst, List.append_cancel_left_eq] at hrest

end Length

end CarrierTape
