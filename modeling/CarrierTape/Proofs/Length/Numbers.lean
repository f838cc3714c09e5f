import CarrierTape.Proofs.Json.Grammar
import CarrierTape.Proofs.Length.Reader

/-!
Numbers as documents write them are numerals of lengths too. Such a number, blanks and the name
of a unit are read as the number nearest to its decimal, in that unit (`parse_numberWritten`).
-/

namespace CarrierTape

open Decimal

/-! ### Blanks behind a text -/

theorem Text.trim_append {body : List Char} (after : List Char) (hne : body ≠ [])
    (hhead : ∀ c ∈ body.head?, isBlank c = false)
    (hlast : ∀ c ∈ body.getLast?, isBlank c = false) (hafter : ∀ c ∈ after, isBlank c) :
    trim (body ++ after) = body := by
  have hfront : (body ++ after).dropWhile isBlank = body ++ after := by
    obtain ⟨c, cs, rfl⟩ := List.exists_cons_of_ne_nil hne
    exact List.dropWhile_cons_of_neg (by simp [hhead c rfl])
  have hback : (body ++ after).reverse.dropWhile isBlank = body.reverse := by
    rw [List.reverse_append, List.dropWhile_append_of_pos (by simpa using hafter)]
    obtain ⟨c, cs, hcons⟩ := List.exists_cons_of_ne_nil (List.reverse_ne_nil_iff.2 hne)
    have hc : isBlank c = false := hlast c (by rw [← List.head?_reverse, hcons]; rfl)
    rw [hcons]
    exact List.dropWhile_cons_of_neg (by simp [hc])
  rw [trim, hfront, hback, List.reverse_reverse]

namespace Length

open Json

/-! ### Numbers of documents in the parts of a numeral -/

theorem exists_point_of_fractionWritten {fraction cs : List Char}
    (h : FractionWritten fraction cs) :
    ∃ point, cs = point ++ fraction ∧ (point = ['.'] ∨ point = [] ∧ fraction = []) := by
  rcases h with ⟨hnone, rfl⟩ | ⟨-, rfl⟩
  · exact ⟨[], by rw [hnone, List.append_nil], .inr ⟨rfl, hnone⟩⟩
  · exact ⟨['.'], rfl, .inl rfl⟩

theorem exists_mark_of_exponentWritten {e : Option ℤ} {cs : List Char} (h : ExponentWritten e cs) :
    ∃ mark sign digits, cs = mark ++ sign ++ digits ∧
      (if cs = [] then none else some (signedValue sign digits)) = e ∧
      (cs = [] ∨ (mark = ['e'] ∨ mark = ['E']) ∧ IsSign sign ∧ digits ≠ [] ∧
        ∀ c ∈ digits, c.isDigit) := by
  cases e with
  | none =>
    obtain rfl : cs = [] := h
    exact ⟨[], [], [], rfl, rfl, .inl rfl⟩
  | some e =>
    obtain ⟨mark, sign, digits, hmark, hsign, hne, hdigits, rfl, rfl⟩ := h
    refine ⟨[mark], sign, digits, by simp, by simp, .inr ⟨?_, hsign, hne, hdigits⟩⟩
    exact hmark.imp (congrArg ([·])) (congrArg ([·]))

theorem exists_spelling_of_numberWritten {n : Numeral} {token : List Char}
    (h : NumberWritten n token) :
    ∃ s : Spelling, s.WellFormed .asciiOnly ∧ s.text = token ∧ s.numeral = n := by
  obtain ⟨body, hbody, rfl⟩ := h
  obtain ⟨fraction, exponent, hfraction, hexponent, rfl⟩ := hbody.parts
  obtain ⟨point, rfl, hpoint⟩ := exists_point_of_fractionWritten hfraction
  obtain ⟨mark, sign, digits, htext, hvalue, hparts⟩ := exists_mark_of_exponentWritten hexponent
  have hsign : IsSign (if n.negative then ['-'] else []) ∧
      ((if n.negative then ['-'] else []) == ['-']) = n.negative := by
    cases n.negative with
    | true => exact ⟨.inr (.inr rfl), rfl⟩
    | false => exact ⟨.inl rfl, rfl⟩
  refine ⟨⟨if n.negative then ['-'] else [], n.whole, point, n.fraction, mark, sign, digits⟩,
    ⟨hsign.1, hbody.whole, hbody.fraction, .inl hbody.whole_ne_nil, hpoint, ?_⟩, ?_, ?_⟩
  · rw [Spelling.exponentText, ← htext]
    exact hparts
  · simp [Spelling.text, Spelling.exponentText, htext]
  · simp only [Spelling.numeral, Spelling.negative, Spelling.exponentText, ← htext, hvalue, hsign.2]

/-! ### Names of units -/

theorem isAlpha_of_toLower {c : Char} (h : c.toLower.isAlpha) : c.isAlpha := by
  unfold Char.toLower at h
  split at h
  case isTrue hupper =>
    have hletter : c.isUpper := decide_eq_true hupper
    exact Bool.or_eq_true_iff.2 (.inl hletter)
  case isFalse => exact h

theorem Names.isAlpha {letters : List Char} {units : LengthUnit} (h : Names letters units) :
    ∀ c ∈ letters, c.isAlpha := by
  intro c hc
  rcases h with hname | ⟨rfl, -⟩
  · apply isAlpha_of_toLower
    have hmem : c.toLower ∈ units.shortName.toList := hname ▸ List.mem_map_of_mem hc
    have hall : units.shortName.toList.all Char.isAlpha := by cases units <;> decide
    exact List.all_eq_true.1 hall _ hmem
  · exact absurd hc List.not_mem_nil

theorem names_shortName (units : LengthUnit) : Names units.shortName.toList units := by
  left
  cases units <;> rfl

/-! ### Numbers with units -/

theorem exists_head_of_numberWritten {n : Numeral} {token : List Char} (h : NumberWritten n token) :
    ∃ c tail, token = c :: tail ∧ Text.isBlank c = false := by
  obtain ⟨body, hbody, rfl⟩ := h
  cases n.negative with
  | true => exact ⟨'-', body, rfl, by decide⟩
  | false =>
    obtain ⟨fraction, exponent, -, -, rfl⟩ := hbody.parts
    obtain ⟨c, tail, hwhole⟩ := List.exists_cons_of_ne_nil hbody.whole_ne_nil
    have hc : c.isDigit := hbody.whole c (by simp [hwhole])
    exact ⟨c, tail ++ fraction ++ exponent, by simp [hwhole], DigitClass.asciiOnly.notBlank c hc⟩

/-- Blanks that no letters follow are blanks at the end of the text. -/
theorem exists_split_numberWritten {n : Numeral} {token blanks letters : List Char}
    (hn : NumberWritten n token) (hblanks : ∀ c ∈ blanks, Text.isBlank c)
    (hletters : ∀ c ∈ letters, c.isAlpha) :
    ∃ s blanks', Split .asciiOnly (Text.trim (token ++ (blanks ++ letters))) s blanks' letters ∧
      s.numeral = n := by
  obtain ⟨c, tail, rfl, hhead⟩ := exists_head_of_numberWritten hn
  obtain ⟨s, hformed, htext, hnumeral⟩ := exists_spelling_of_numberWritten hn
  by_cases hnone : letters = []
  · obtain ⟨front, d, hlast, hd⟩ := hformed.exists_last
    rw [isTail, Bool.or_eq_false_iff] at hd
    have htrim := Text.trim_append blanks (List.cons_ne_nil c tail) (by simpa using hhead)
      (by simpa [← htext, hlast] using hd.1) hblanks
    refine ⟨s, [], ⟨hformed, by simp, hletters, ?_⟩, hnumeral⟩
    rw [hnone, List.append_nil, htrim, htext, List.append_nil, List.append_nil]
  · have hend : ∀ d ∈ (c :: tail ++ (blanks ++ letters)).getLast?, Text.isBlank d = false := by
      intro d hd
      rw [← List.append_assoc, List.getLast?_append_of_ne_nil _ hnone] at hd
      exact isBlank_eq_false_of_isAlpha (hletters d (List.mem_of_mem_getLast? hd))
    have htrim := Text.trim_append [] (by simp : c :: tail ++ (blanks ++ letters) ≠ [])
      (by simpa using hhead) hend (by simp)
    rw [List.append_nil] at htrim
    exact ⟨s, blanks, ⟨hformed, hblanks, hletters, by rw [htrim, htext]⟩, hnumeral⟩

theorem parse_numberWritten {n : Numeral} {token blanks letters : List Char} {units : LengthUnit}
    (hn : NumberWritten n token) (hblanks : ∀ c ∈ blanks, Text.isBlank c)
    (hunits : Names letters units) :
    parse (String.ofList (token ++ (blanks ++ letters))) = .ok ⟨n.nearest, units⟩ := by
  obtain ⟨s, blanks', hsplit, rfl⟩ := exists_split_numberWritten hn hblanks hunits.isAlpha
  have hascii := ((Spelling.wellFormed_asciiOnly_iff .asciiOnly).1 hsplit.numeral).2
  rw [parse_eq, String.toList_ofList,
    (split?_eq_some_iff .asciiOnly).2 ⟨s, blanks', hsplit, hascii, rfl⟩]
  simp only [unitOf?_eq_some_iff.2 hunits]

end Length

end CarrierTape
