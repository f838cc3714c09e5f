import CarrierTape.Proofs.Json.Nearest
import CarrierTape.Proofs.Json.Printer
import CarrierTape.Proofs.Length.Document
import CarrierTape.Proofs.Length.Numbers

/-!
The forms of a length in documents agree. A number by itself or in an object goes through the
reader of documents, which takes an integer for an integer and may round anything else more than
once; a text goes through the reader of lengths, which always finds the nearest number. Up to 15
digits and 22 places to either side the first finds it too (`forms_agree`).
-/

namespace CarrierTape

open Decimal Json

theorem ofDigitChars_lt {digits : List Char} (h : ∀ c ∈ digits, c.isDigit) :
    Nat.ofDigitChars 10 digits 0 < 10 ^ digits.length := by
  induction digits using List.reverseRecOn with
  | nil => exact Nat.one_pos
  | append_singleton digits c ih =>
    rw [List.forall_mem_append, List.forall_mem_singleton] at h
    have hrest := ih h.1
    have hc : c.toNat - '0'.toNat ≤ 9 := Nat.sub_le_of_le_add (toNat_of_isDigit h.2).2
    rw [Nat.ofDigitChars_append, Nat.ofDigitChars_cons, Nat.ofDigitChars_nil, List.length_append,
      List.length_singleton, Nat.pow_succ]
    omega

namespace Json.NumberWritten

variable {n : Numeral} {token : List Char}

theorem significand_lt (h : NumberWritten n token) :
    n.significand < 10 ^ (n.whole.length + n.fraction.length) := by
  obtain ⟨body, hbody, -⟩ := h
  rw [← List.length_append]
  exact ofDigitChars_lt (List.forall_mem_append.2 ⟨hbody.whole, hbody.fraction⟩)

/-- What can be written at all can be printed. -/
theorem text (h : NumberWritten n token) : NumberWritten n n.text := by
  obtain ⟨body, hbody, -⟩ := h
  exact numberWritten_text ⟨hbody.whole, hbody.whole_ne_nil, hbody.leading⟩ hbody.fraction

end Json.NumberWritten

namespace Length

/-- The values that give a length by the number of a token: this number itself, which means
millimetres, or a text of the token, blanks and the unit in any letter case, or an object. -/
inductive Form (n : Numeral) (token : List Char) (units : LengthUnit) : Json → Prop
  | number (hunits : units = .millimetre) : Form n token units (.number n)
  | text {blanks letters : List Char} (hblanks : ∀ c ∈ blanks, Text.isBlank c)
    (hletters : Names letters units) :
    Form n token units (ofString (String.ofList (token ++ (blanks ++ letters))))
  | tagged : Form n token units
    (ofFields [("value", .number n), ("units", ofString units.shortName)])

namespace Form

variable {n : Numeral} {token : List Char} {units : LengthUnit} {v : Json}

theorem written_print (h : Form n token units v) (hn : NumberWritten n n.text) :
    Written v (print v) := by
  cases h with
  | number => exact hn
  | text => exact quotedWritten_printQuoted _
  | tagged =>
    apply written_ofFields
    rw [List.forall_mem_cons, List.forall_mem_singleton]
    exact ⟨hn, quotedWritten_printQuoted _⟩

theorem check_eq_ok (h : Form n token units v) (hn : n.number?.isSome) {depth : ℕ}
    (hdepth : depth ≠ 0) : check depth v = .ok () := by
  have hnumber (depth : ℕ) : check depth (.number n) = .ok () := by simp [check, hn]
  cases h with
  | number => exact hnumber depth
  | text => rfl
  | tagged =>
    apply check_object_iff.2
    rw [checkMembers_ofList_iff, List.forall_mem_cons, List.forall_mem_singleton]
    exact ⟨hdepth, hnumber _, rfl⟩

theorem ofWhole_eq (h : Form n token units v) (htoken : NumberWritten n token)
    (hn : number? (.number n) = some n.nearest) : ofWhole v = .ok ⟨n.nearest, units⟩ := by
  cases h with
  | number hunits =>
    subst hunits
    exact congrArg (Option.elim · noForm fun x => .ok (millimetres x)) hn
  | text hblanks hletters =>
    exact congrArg (Except.mapError _) (parse_numberWritten htoken hblanks hletters)
  | tagged =>
    refine ofWhole_object_eq_ok_iff.2 (tagged?_eq_some_iff.2
      ⟨.number n, ofString units.shortName, ?_, ?_, hn, ?_⟩)
    · rw [lookup_ofList]
      rfl
    · rw [lookup_ofList]
      rfl
    · exact ofShortName?_eq_some_iff.2 rfl

end Form

/-- All documents of all forms hold the same length, the number nearest to the decimal in the
unit, and there are documents of every form. -/
theorem forms_agree {n : Numeral} {token : List Char} (htoken : NumberWritten n token)
    (hdigits : n.whole.length + n.fraction.length ≤ 15) (hlow : -22 ≤ n.scale)
    (hhigh : n.scale ≤ 22) {units : LengthUnit} {v : Json} (hform : Form n token units v) :
    (∃ doc, Spells doc v) ∧ ∀ doc, Spells doc v → ofDocument doc = .ok ⟨n.nearest, units⟩ := by
  have hsmall : n.significand < 10 ^ 15 :=
    htoken.significand_lt.trans_le (Nat.pow_le_pow_right (by decide) hdigits)
  have hnumber : number? (.number n) = some n.nearest :=
    Numeral.number?_eq_nearest hsmall hlow hhigh
  have hsome : n.number?.isSome := by
    rw [← Option.isSome_map, ← number?]
    exact Option.isSome_of_eq_some hnumber
  refine ⟨⟨_, spells_print (hform.written_print htoken.text)⟩, fun doc hdoc => ?_⟩
  rw [ofDocument, decodeText_of_spells hdoc]
  exact decoder_eq_ok_iff.2 ⟨hform.check_eq_ok hsome (by decide), hform.ofWhole_eq htoken hnumber⟩

/-- The negative zero is not an integer, and it keeps its sign in every form. -/
theorem forms_agree_negativeZero :
    NumberWritten ⟨true, ['0'], [], none⟩ ['-', '0'] ∧
    ofDocument "-0" = .ok ⟨.zero true, .millimetre⟩ ∧
    ofDocument "\"-0\"" = .ok ⟨.zero true, .millimetre⟩ ∧
    ofDocument "\"-0mm\"" = .ok ⟨.zero true, .millimetre⟩ ∧
    ofDocument "\x7b\"value\":-0,\"units\":\"mm\"\x7d" = .ok ⟨.zero true, .millimetre⟩ ∧
    ofDocument "\"-0  In\"" = .ok ⟨.zero true, .inch⟩ ∧
    ofDocument "\x7b\"value\":-0,\"units\":\"in\"\x7d" = .ok ⟨.zero true, .inch⟩ := by
  set n : Numeral := ⟨true, ['0'], [], none⟩
  have htoken : NumberWritten n ['-', '0'] :=
    numberWritten_text (wholeDigits_toDigits 0) (List.forall_mem_nil _)
  have hvalue : n.nearest = .zero true := rfl
  have hread {units : LengthUnit} {v : Json} (hform : Form n ['-', '0'] units v) {doc : String}
      (hdoc : String.ofList (print v) = doc) : ofDocument doc = .ok ⟨.zero true, units⟩ := by
    rw [← hvalue, ← hdoc]
    exact (forms_agree htoken (by decide) (by decide) (by decide) hform).2 _
      (spells_print (hform.written_print htoken.text))
  have hblanks : ∀ c ∈ [' ', ' '], Text.isBlank c :=
    List.forall_mem_cons.2 ⟨rfl, List.forall_mem_singleton.2 rfl⟩
  have hletters : Names ['I', 'n'] .inch := .inl rfl
  refine ⟨htoken, hread (.number rfl) ?_,
    hread (.text (List.forall_mem_nil _) (.inr ⟨rfl, rfl⟩)) ?_,
    hread (.text (List.forall_mem_nil _) (names_shortName _)) ?_, hread .tagged ?_,
    hread (.text hblanks hletters) ?_, hread .tagged ?_⟩
  all_goals decide +kernel

end Length

end CarrierTape
