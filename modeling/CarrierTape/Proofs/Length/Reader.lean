import CarrierTape.Proofs.Length.Grammar

/-!
The reader of lengths and the grammar agree on every text. What the reader takes for a
numeral is spelled as one (`exists_spelling_of_readNumeral?`), and a numeral followed by
blanks and letters is read to its end, also where the letters start like an exponent
(`readNumeral?_spelling`). Texts in other digits than the ASCII ones are refused without
being told apart, which is right because they are split in one way at most
(`parse_eq_iff`).
-/

namespace CarrierTape

open Decimal

def DigitClass.asciiOnly : DigitClass where
  contains := Char.isDigit
  ascii _ _ := rfl
  notBlank c hc := by
    have hrange := toNat_of_isDigit hc
    exact isBlank_eq_false (by omega) (by omega)

namespace Length

namespace Spelling

def numeral (s : Spelling) : Numeral where
  negative := s.negative
  whole := s.whole
  fraction := s.fraction
  exponent :=
    if s.exponentText = [] then none else some (signedValue s.exponentSign s.exponent)

theorem toNat_lt_of_isDigit {c : Char} (h : c.isDigit) : c.toNat < 128 :=
  (toNat_of_isDigit h).2.trans_lt (by decide)

theorem contains_of_isDigit (D : DigitClass) {c : Char} (h : c.isDigit) : D.contains c := by
  rw [D.ascii c (toNat_lt_of_isDigit h)]
  exact h

theorem WellFormed.mono {D E : DigitClass} {s : Spelling} (h : s.WellFormed D)
    (hle : ∀ c ∈ s.text, D.contains c → E.contains c) : s.WellFormed E where
  sign := h.sign
  whole c hc := hle c (by simp [text, hc]) (h.whole c hc)
  fraction c hc := hle c (by simp [text, hc]) (h.fraction c hc)
  places := h.places
  point := h.point
  exponent := h.exponent.imp_right fun ⟨hmark, hsign, hne, hdigits⟩ =>
    ⟨hmark, hsign, hne, fun c hc => hle c (by simp [text, exponentText, hc]) (hdigits c hc)⟩

theorem ascii_of_isSign {cs : List Char} (h : IsSign cs) : ∀ c ∈ cs, c.toNat < 128 := by
  rcases h with rfl | rfl | rfl <;> simp

/-- ASCII digits are what numerals in ASCII consist of, for all classes of digits. -/
theorem wellFormed_asciiOnly_iff (D : DigitClass) {s : Spelling} :
    s.WellFormed .asciiOnly ↔ s.WellFormed D ∧ s.Ascii := by
  constructor
  · intro h
    refine ⟨h.mono fun c _ hc => contains_of_isDigit D hc, fun c hc => ?_⟩
    have hdigits {cs : List Char} (hall : ∀ c ∈ cs, DigitClass.asciiOnly.contains c) :
        c ∈ cs → c.toNat < 128 := fun hmem => toNat_lt_of_isDigit (hall c hmem)
    have hexponent : c ∈ s.exponentText → c.toNat < 128 := by
      rcases h.exponent with hnone | ⟨hmark, hsign, -, hall⟩
      · simp [hnone]
      · intro hmem
        rw [exponentText, List.mem_append, List.mem_append] at hmem
        rcases hmem with (hmem | hmem) | hmem
        · rcases hmark with heq | heq <;> rw [heq, List.mem_singleton] at hmem <;> rw [hmem] <;>
            decide
        · exact ascii_of_isSign hsign c hmem
        · exact hdigits hall hmem
    have hpoint : c ∈ s.point → c.toNat < 128 := by
      rcases h.point with heq | ⟨heq, -⟩ <;> rw [heq] <;> simp
      rintro rfl
      decide
    simp only [text, List.mem_append] at hc
    rcases hc with (((hc | hc) | hc) | hc) | hc
    · exact ascii_of_isSign h.sign c hc
    · exact hdigits h.whole hc
    · exact hpoint hc
    · exact hdigits h.fraction hc
    · exact hexponent hc
  · rintro ⟨h, hascii⟩
    refine h.mono fun c hc hcontains => ?_
    rwa [D.ascii c (hascii c hc)] at hcontains

theorem nearestTo_nearest (s : Spelling) :
    Binary64.NearestTo s.negative s.magnitude s.numeral.nearest := by
  have hexponent : s.numeral.exponent.getD 0 = signedValue s.exponentSign s.exponent := by
    simp only [numeral]
    split_ifs with hnone
    · simp only [exponentText, List.append_eq_nil_iff] at hnone
      rw [hnone.1.2, hnone.2]
      rfl
    · rfl
  have hscale : s.numeral.scale =
      signedValue s.exponentSign s.exponent - s.fraction.length := by
    rw [Numeral.scale, hexponent]
    rfl
  rw [Numeral.nearest, hscale]
  exact Binary64.nearestTo_ofDecimal _ _ _

end Spelling

/-! ### What is read is spelled -/

theorem exists_sign_of_readSign {cs rest : List Char} {negative : Bool}
    (h : readSign cs = (negative, rest)) :
    ∃ sign, IsSign sign ∧ cs = sign ++ rest ∧ (sign == ['-']) = negative := by
  unfold readSign at h
  split at h <;> obtain ⟨rfl, rfl⟩ := Prod.mk.inj h
  · exact ⟨['-'], .inr (.inr rfl), rfl, rfl⟩
  · exact ⟨['+'], .inr (.inl rfl), rfl, rfl⟩
  · exact ⟨[], .inl rfl, rfl, rfl⟩

theorem exists_point_of_readPlaces? {cs whole fraction rest : List Char}
    (h : readPlaces? cs = some (whole, fraction, rest)) :
    ∃ point, cs = whole ++ point ++ fraction ++ rest ∧
      (point = ['.'] ∨ point = [] ∧ fraction = []) ∧ (whole ≠ [] ∨ fraction ≠ []) ∧
      (∀ c ∈ whole, c.isDigit) ∧ ∀ c ∈ fraction, c.isDigit := by
  unfold readPlaces? at h
  cases htake : Numeral.takeDigits cs with
  | mk first behind =>
    obtain ⟨rfl, hfirst, -⟩ := Numeral.takeDigits_eq_iff.1 htake
    simp only [htake] at h
    split at h
    case h_1 behind =>
      cases htake' : Numeral.takeDigits behind with
      | mk second rest' =>
        obtain ⟨rfl, hsecond, -⟩ := Numeral.takeDigits_eq_iff.1 htake'
        simp only [htake'] at h
        split_ifs at h with hempty
        obtain ⟨rfl, rfl, rfl⟩ : first = whole ∧ second = fraction ∧ rest' = rest := by
          simpa using h
        refine ⟨['.'], by simp, .inl rfl, ?_, hfirst, hsecond⟩
        by_contra hnone
        simp_all
    case h_2 =>
      split_ifs at h with hempty
      obtain ⟨rfl, rfl, rfl⟩ : first = whole ∧ [] = fraction ∧ behind = rest := by simpa using h
      refine ⟨[], by simp, .inr ⟨rfl, rfl⟩, .inl ?_, hfirst, by simp⟩
      simpa using hempty

theorem exists_mark_of_readExponent {cs rest : List Char} {e : Option ℤ}
    (h : readExponent cs = (e, rest)) :
    e = none ∧ rest = cs ∨
      ∃ mark sign digits, (mark = ['e'] ∨ mark = ['E']) ∧ IsSign sign ∧ digits ≠ [] ∧
        (∀ c ∈ digits, c.isDigit) ∧ cs = mark ++ sign ++ digits ++ rest ∧
        e = some (signedValue sign digits) := by
  unfold readExponent at h
  split at h
  case h_1 c behind =>
    split_ifs at h with hmark
    · split at h
      case h_1 value tail hread =>
        obtain ⟨rfl, rfl⟩ := Prod.mk.inj h
        obtain ⟨sign, digits, hsign, hne, hdigits, -, rfl, rfl⟩ :=
          Numeral.readExponent?_eq_some_iff.1 hread
        refine .inr ⟨[c], sign, digits, ?_, hsign, hne, hdigits, by simp, rfl⟩
        exact hmark.imp (congrArg ([·])) (congrArg ([·]))
      case h_2 => exact .inl ⟨(Prod.mk.inj h).1.symm, (Prod.mk.inj h).2.symm⟩
    · exact .inl ⟨(Prod.mk.inj h).1.symm, (Prod.mk.inj h).2.symm⟩
  case h_2 => exact .inl ⟨(Prod.mk.inj h).1.symm, (Prod.mk.inj h).2.symm⟩

theorem readNumeral?_eq_some_iff {cs rest : List Char} {n : Numeral} :
    readNumeral? cs = some (n, rest) ↔
      ∃ behind tail, readSign cs = (n.negative, behind) ∧
        readPlaces? behind = some (n.whole, n.fraction, tail) ∧
        readExponent tail = (n.exponent, rest) := by
  unfold readNumeral?
  cases hsign : readSign cs with
  | mk negative behind =>
    cases hplaces : readPlaces? behind with
    | none => simp [hplaces]
    | some places =>
      obtain ⟨whole, fraction, tail⟩ := places
      cases hexponent : readExponent tail with
      | mk exponent rest' =>
        obtain ⟨negative', whole', fraction', exponent'⟩ := n
        simp [hplaces, hexponent, and_assoc]

theorem exists_spelling_of_readNumeral? {cs rest : List Char} {n : Numeral}
    (h : readNumeral? cs = some (n, rest)) :
    ∃ s : Spelling, s.WellFormed .asciiOnly ∧ cs = s.text ++ rest ∧ s.numeral = n := by
  obtain ⟨behind, tail, hsign, hplaces, hexponent⟩ := readNumeral?_eq_some_iff.1 h
  obtain ⟨sign, hisSign, rfl, hnegative⟩ := exists_sign_of_readSign hsign
  obtain ⟨point, rfl, hpoint, hne, hwhole, hfraction⟩ := exists_point_of_readPlaces? hplaces
  rcases exists_mark_of_readExponent hexponent with ⟨hnone, rfl⟩ |
    ⟨mark, exponentSign, digits, hmark, hexponentSign, hdigitsNe, hdigits, rfl, hvalue⟩
  · refine ⟨⟨sign, n.whole, point, n.fraction, [], [], []⟩,
      ⟨hisSign, hwhole, hfraction, hne, hpoint, .inl rfl⟩, ?_, ?_⟩
    · simp [Spelling.text, Spelling.exponentText]
    · simp [Spelling.numeral, Spelling.negative, Spelling.exponentText, hnegative, ← hnone]
  · refine ⟨⟨sign, n.whole, point, n.fraction, mark, exponentSign, digits⟩,
      ⟨hisSign, hwhole, hfraction, hne, hpoint, .inr ⟨hmark, hexponentSign, hdigitsNe, hdigits⟩⟩,
      ?_, ?_⟩
    · simp [Spelling.text, Spelling.exponentText]
    · simp [Spelling.numeral, Spelling.negative, Spelling.exponentText, hnegative, hdigitsNe,
        ← hvalue]

/-! ### What is spelled is read -/

theorem readSign_append {sign cs : List Char} (hsign : IsSign sign)
    (hcs : ∀ c ∈ cs.head?, c ≠ '+' ∧ c ≠ '-') :
    readSign (sign ++ cs) = (sign == ['-'], cs) := by
  rcases hsign with rfl | rfl | rfl
  · cases cs with
    | nil => rfl
    | cons c rest =>
      obtain ⟨hplus, hminus⟩ := hcs c rfl
      simp [readSign, hplus, hminus]
  · rfl
  · rfl

theorem readPlaces?_append {whole point fraction rest : List Char}
    (hpoint : point = ['.'] ∨ point = [] ∧ fraction = []) (hne : whole ≠ [] ∨ fraction ≠ [])
    (hwhole : ∀ c ∈ whole, c.isDigit) (hfraction : ∀ c ∈ fraction, c.isDigit)
    (hrest : ∀ c ∈ rest.head?, c.isDigit = false ∧ c ≠ '.') :
    readPlaces? (whole ++ point ++ fraction ++ rest) = some (whole, fraction, rest) := by
  have hstop : ∀ c ∈ rest.head?, c.isDigit = false := fun c hc => (hrest c hc).1
  rcases hpoint with rfl | ⟨rfl, rfl⟩
  · have htext : whole ++ ['.'] ++ fraction ++ rest = whole ++ '.' :: (fraction ++ rest) := by simp
    have htake : Numeral.takeDigits (whole ++ '.' :: (fraction ++ rest)) =
        (whole, '.' :: (fraction ++ rest)) :=
      Numeral.takeDigits_eq_iff.2 ⟨rfl, hwhole, by simp⟩
    rw [htext, readPlaces?, htake]
    simpa [Numeral.takeDigits_eq_iff.2 ⟨rfl, hfraction, hstop⟩] using
      fun hempty : whole = [] => hne.resolve_left (not_not.2 hempty)
  · have htake : Numeral.takeDigits (whole ++ rest) = (whole, rest) :=
      Numeral.takeDigits_eq_iff.2 ⟨rfl, hwhole, hstop⟩
    have hnot : ∀ behind, rest ≠ '.' :: behind := by
      rintro behind rfl
      exact (hrest '.' rfl).2 rfl
    have hwholeNe : whole ≠ [] := hne.resolve_right (not_not.2 rfl)
    rw [List.append_nil, List.append_nil, readPlaces?, htake]
    simp [hwholeNe]

/-- Blanks and letters are no part of a numeral: they hold no digit and no sign, so that no
letter among them starts an exponent. -/
theorem not_number_of_isTail {c : Char} (h : isTail c) :
    c.isDigit = false ∧ c ≠ '.' ∧ c ≠ '+' ∧ c ≠ '-' := by
  refine ⟨Bool.eq_false_iff.2 fun hdigit => ?_, ?_, ?_, ?_⟩
  · have hnot := isTail_of_contains (D := .asciiOnly) hdigit
    rw [h] at hnot
    exact Bool.noConfusion hnot
  all_goals
    rintro rfl
    exact absurd h (by decide)

theorem readExponent_tail {rest : List Char} (h : ∀ c ∈ rest, isTail c) :
    readExponent rest = (none, rest) := by
  cases rest with
  | nil => rfl
  | cons c tail =>
    have htail : Numeral.readExponent? tail = none := by
      rw [Option.eq_none_iff_forall_not_mem]
      rintro ⟨e, behind⟩ hread
      obtain ⟨sign, digits, hsign, hne, hdigits, -, rfl, -⟩ :=
        Numeral.readExponent?_eq_some_iff.1 hread
      obtain ⟨d, ds, rfl⟩ := List.exists_cons_of_ne_nil hne
      have hdigit := (not_number_of_isTail (h d (by simp))).1
      rw [hdigits d List.mem_cons_self] at hdigit
      exact Bool.noConfusion hdigit
    simp [readExponent, htail]

theorem readExponent_append {s : Spelling} (h : s.WellFormed .asciiOnly) {rest : List Char}
    (hrest : ∀ c ∈ rest, isTail c) :
    readExponent (s.exponentText ++ rest) = (s.numeral.exponent, rest) := by
  have hstop : ∀ c ∈ rest.head?, c.isDigit = false := fun c hc =>
    (not_number_of_isTail (hrest c (List.mem_of_mem_head? hc))).1
  rcases h.exponent with hnone | ⟨hmark, hsign, hne, hdigits⟩
  · simp [hnone, readExponent_tail hrest, Spelling.numeral]
  · have hread : Numeral.readExponent? (s.exponentSign ++ (s.exponent ++ rest)) =
        some (signedValue s.exponentSign s.exponent, rest) :=
      Numeral.readExponent?_eq_some_iff.2 ⟨_, _, hsign, hne, hdigits, hstop, rfl, rfl⟩
    rcases hmark with hmark | hmark <;>
      simp [Spelling.exponentText, Spelling.numeral, hmark, readExponent, hread]

/-- The reader takes all of a numeral, and nothing of the blanks and letters behind it. -/
theorem readNumeral?_spelling {s : Spelling} (h : s.WellFormed .asciiOnly) {rest : List Char}
    (hrest : ∀ c ∈ rest, isTail c) :
    readNumeral? (s.text ++ rest) = some (s.numeral, rest) := by
  have hends : ∀ c ∈ (s.exponentText ++ rest).head?, c.isDigit = false ∧ c ≠ '.' := by
    rcases h.exponent with hnone | ⟨hmark, -, -, -⟩
    · rw [hnone, List.nil_append]
      intro c hc
      have hnot := not_number_of_isTail (hrest c (List.mem_of_mem_head? hc))
      exact ⟨hnot.1, hnot.2.1⟩
    · rcases hmark with hmark | hmark <;> simp [Spelling.exponentText, hmark]
  have hstarts : ∀ c ∈ (s.whole ++ s.point ++ s.fraction ++ (s.exponentText ++ rest)).head?,
      c ≠ '+' ∧ c ≠ '-' := by
    cases hwhole : s.whole with
    | cons c tail =>
      have hdigit : c.isDigit := h.whole c (by simp [hwhole])
      simpa using Numeral.ne_sign_of_isDigit hdigit
    | nil =>
      have hpoint : s.point = ['.'] := by
        by_contra hnot
        exact (h.places.resolve_left (not_not.2 hwhole)) (h.point.resolve_left hnot).2
      simp [hpoint]
  have htext : s.text ++ rest =
      s.sign ++ (s.whole ++ s.point ++ s.fraction ++ (s.exponentText ++ rest)) := by
    simp [Spelling.text]
  rw [htext]
  exact readNumeral?_eq_some_iff.2 ⟨_, _, readSign_append h.sign hstarts,
    readPlaces?_append h.point h.places h.whole h.fraction hends, readExponent_append h hrest⟩

/-! ### Whole texts -/

theorem split?_eq_some_iff (D : DigitClass) {text letters : List Char} {n : Numeral} :
    split? text = some (n, letters) ↔
      ∃ s blanks, Split D text s blanks letters ∧ s.Ascii ∧ s.numeral = n := by
  constructor
  · intro h
    cases hread : readNumeral? text with
    | none => simp [split?, hread] at h
    | some found =>
      obtain ⟨n', rest⟩ := found
      obtain ⟨s, hformed, rfl, hnumeral⟩ := exists_spelling_of_readNumeral? hread
      obtain ⟨hD, hascii⟩ := (Spelling.wellFormed_asciiOnly_iff D).1 hformed
      simp only [split?, hread, Option.bind_eq_bind, Option.bind_some,
        Option.ite_none_right_eq_some, Option.some.injEq, Prod.mk.injEq] at h
      obtain ⟨hletters, rfl, rfl⟩ := h
      refine ⟨s, rest.takeWhile Text.isBlank, ⟨hD, ?_, ?_, ?_⟩, hascii, hnumeral⟩
      · exact fun c hc => List.mem_takeWhile_imp hc
      · exact List.all_eq_true.1 hletters
      · rw [List.takeWhile_append_dropWhile]
  · rintro ⟨s, blanks, hsplit, hascii, rfl⟩
    have hformed := (Spelling.wellFormed_asciiOnly_iff D).2 ⟨hsplit.numeral, hascii⟩
    have hdrop : (blanks ++ letters).dropWhile Text.isBlank = letters := by
      rw [List.dropWhile_append_of_pos hsplit.isBlank]
      cases letters with
      | nil => rfl
      | cons c tail =>
        have hc := isBlank_eq_false_of_isAlpha (hsplit.isAlpha c List.mem_cons_self)
        rw [List.dropWhile_cons_of_neg (by simp [hc])]
    rw [hsplit.text_eq, split?, readNumeral?_spelling hformed hsplit.isTail]
    have hall : letters.all Char.isAlpha = true := List.all_eq_true.2 hsplit.isAlpha
    simp only [Option.bind_eq_bind, Option.bind_some, hdrop, hall, if_true]

theorem split?_eq_none_iff (D : DigitClass) {text : List Char} :
    split? text = none ↔
      ∀ {s blanks letters}, Split D text s blanks letters → ¬ s.Ascii := by
  rw [Option.eq_none_iff_forall_not_mem]
  constructor
  · intro hnone s blanks letters h hascii
    exact hnone _ ((split?_eq_some_iff D).2 ⟨s, blanks, h, hascii, rfl⟩)
  · rintro hother ⟨n, letters⟩ hsome
    obtain ⟨s, blanks, h, hascii, -⟩ := (split?_eq_some_iff D).1 hsome
    exact hother h hascii

theorem ofShortName?_eq_some_iff {name : String} {units : LengthUnit} :
    LengthUnit.ofShortName? name = some units ↔ units.shortName = name := by
  constructor
  · intro h
    simpa using List.find?_some h
  · rintro rfl
    cases units <;> decide

def unitOf? (letters : List Char) : Option LengthUnit :=
  if letters = [] then some .millimetre else LengthUnit.ofName? (String.ofList letters)

theorem unitOf?_eq_some_iff {letters : List Char} {units : LengthUnit} :
    unitOf? letters = some units ↔ Names letters units := by
  unfold unitOf? Names
  split_ifs with hempty
  · subst hempty
    cases units <;> simp [LengthUnit.shortName]
  · rw [LengthUnit.ofName?, ofShortName?_eq_some_iff, ← String.toList_inj, String.toList_ofList,
      String.toList_ofList, eq_comm]
    simp [hempty]

/-- The reader, said in one go. -/
theorem parse_eq (text : String) :
    parse text =
      match split? (Text.trim text.toList) with
      | none => .error (.invalidNumber text)
      | some (n, letters) =>
        match unitOf? letters with
        | none => .error (.unknownUnit (String.ofList letters))
        | some units => .ok ⟨n.nearest, units⟩ := by
  unfold parse
  cases split? (Text.trim text.toList) with
  | none => rfl
  | some found =>
    obtain ⟨n, letters⟩ := found
    cases letters with
    | nil => rfl
    | cons c tail =>
      simp only [unitOf?, reduceCtorEq, if_false]
      cases LengthUnit.ofName? (String.ofList (c :: tail)) <;> rfl

theorem reads_parse (D : DigitClass) (text : String) : Reads D text (parse text) := by
  rw [parse_eq]
  cases hsplit : split? (Text.trim text.toList) with
  | none =>
    by_cases hsome : ∃ s blanks letters, Split D (Text.trim text.toList) s blanks letters
    · obtain ⟨s, blanks, letters, h⟩ := hsome
      exact .otherDigit h ((split?_eq_none_iff D).1 hsplit h)
    · exact .noSplit fun s blanks letters h => hsome ⟨s, blanks, letters, h⟩
  | some found =>
    obtain ⟨n, letters⟩ := found
    obtain ⟨s, blanks, h, hascii, rfl⟩ := (split?_eq_some_iff D).1 hsplit
    cases hunit : unitOf? letters with
    | none =>
      simp only [hunit]
      refine .unknownUnit h hascii fun units hnames => ?_
      rw [unitOf?_eq_some_iff.2 hnames] at hunit
      cases hunit
    | some units =>
      simp only [hunit]
      exact .length h hascii s.nearestTo_nearest (unitOf?_eq_some_iff.1 hunit)

theorem Reads.parse_eq {D : DigitClass} {text : String} {answer : Except LengthError Length}
    (h : Reads D text answer) : parse text = answer := by
  rw [Length.parse_eq]
  cases h with
  | noSplit hnone =>
    have hsplit : split? (Text.trim text.toList) = none :=
      (split?_eq_none_iff D).2 fun h => absurd h (hnone _ _ _)
    rw [hsplit]
  | otherDigit h hdigit =>
    have hsplit : split? (Text.trim text.toList) = none := by
      refine (split?_eq_none_iff D).2 fun h' hascii => hdigit ?_
      rw [Spelling.Ascii, (h.unique h').1]
      exact hascii
    rw [hsplit]
  | unknownUnit h hascii hnone =>
    have hunit : ∀ units, unitOf? _ ≠ some units := fun units hsome =>
      hnone units (unitOf?_eq_some_iff.1 hsome)
    rw [(split?_eq_some_iff D).2 ⟨_, _, h, hascii, rfl⟩]
    simp only [Option.eq_none_iff_forall_ne_some.2 hunit]
  | @length s blanks letters x units h hascii hvalue hunit =>
    rw [(split?_eq_some_iff D).2 ⟨s, blanks, h, hascii, rfl⟩]
    simp only [unitOf?_eq_some_iff.2 hunit, s.nearestTo_nearest.unique hvalue]

/-- The reader gives the answer that the grammar determines: a text is split into numeral,
blanks and letters in one way at most, whatever digits there are beside the ASCII ones, and
what this split stands for is what is read. -/
theorem parse_eq_iff (D : DigitClass) (text : String) (answer : Except LengthError Length) :
    (parse text = answer ↔ Reads D text answer) ∧
      ∀ s blanks letters s' blanks' letters',
        Split D (Text.trim text.toList) s blanks letters →
        Split D (Text.trim text.toList) s' blanks' letters' →
        s.text = s'.text ∧ blanks = blanks' ∧ letters = letters' := by
  refine ⟨⟨?_, Reads.parse_eq⟩, fun s blanks letters s' blanks' letters' h h' => h.unique h'⟩
  rintro rfl
  exact reads_parse D text

/-- An `e` that starts an exponent, and a unit in capitals behind a blank. -/
theorem parse_eq_iff_exponent :
    parse "1e1 MIL" = .ok ⟨.ofDecimal false 1 1, .mil⟩ ∧
      ∀ s blanks letters, Split .unicode (Text.trim "1e1 MIL".toList) s blanks letters →
        s.text = ['1', 'e', '1'] ∧ blanks = [' '] ∧ letters = ['M', 'I', 'L'] := by
  have hdigit : ∀ c ∈ ['1'], DigitClass.unicode.contains c :=
    List.forall_mem_singleton.2 (by decide +kernel)
  have hformed : Spelling.WellFormed .unicode ⟨[], ['1'], [], [], ['e'], [], ['1']⟩ :=
    { sign := .inl rfl
      whole := hdigit
      fraction := by simp
      places := .inl (by simp)
      point := .inr ⟨rfl, rfl⟩
      exponent := .inr ⟨.inl rfl, .inl rfl, by simp, hdigit⟩ }
  have hsplit : Split .unicode (Text.trim "1e1 MIL".toList) ⟨[], ['1'], [], [], ['e'], [], ['1']⟩
      [' '] ['M', 'I', 'L'] :=
    ⟨hformed, List.all_eq_true.1 rfl, List.all_eq_true.1 rfl, by decide +kernel⟩
  have hread := parse_eq_iff .unicode "1e1 MIL"
  refine ⟨(hread _).1.2 (.length hsplit ?_ (Spelling.nearestTo_nearest _) (.inl rfl)),
    fun s blanks letters h => (hread (parse "1e1 MIL")).2 _ _ _ _ _ _ h hsplit⟩
  simp [Spelling.Ascii, Spelling.text, Spelling.exponentText]

/-- An `e` that no digits follow starts the letters. -/
example : parse "5e" = .error (.unknownUnit "e") := by cbv

end Length

end CarrierTape
