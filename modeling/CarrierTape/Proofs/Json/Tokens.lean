import CarrierTape.Proofs.Json.Grammar

/-!
Strings, numbers and words are read as they are written: what the grammar allows is read to
its end, and what is read without a fault is what the grammar allows.
-/

namespace CarrierTape.Json

open Decimal

/-! ### Strings -/

theorem isLowSurrogate_eq_false {n : ℕ} (h : isHighSurrogate n) : isLowSurrogate n = false := by
  simp only [isHighSurrogate, isLowSurrogate, Bool.and_eq_true, decide_eq_true_eq,
    Bool.and_eq_false_iff, decide_eq_false_iff_not] at *
  omega

theorem prepend_eq_ok_iff {c : Char} {found : Except Fault (List Char × List Char)}
    {decoded rest : List Char} : prepend c found = .ok (decoded, rest) ↔
      ∃ tail, found = .ok (tail, rest) ∧ decoded = c :: tail := by
  cases found with
  | error fault => simp [prepend]
  | ok pair =>
    obtain ⟨tail, behind⟩ := pair
    simp only [prepend, Except.ok.injEq, Prod.mk.injEq]
    constructor
    · rintro ⟨rfl, rfl⟩
      exact ⟨tail, ⟨rfl, rfl⟩, rfl⟩
    · rintro ⟨_, ⟨rfl, rfl⟩, rfl⟩
      exact ⟨rfl, rfl⟩

theorem decode_append {c : Char} {text : List Char} (h : CharWritten c text) (more : List Char) :
    decode (text ++ more) = prepend c (decode more) := by
  cases h with
  | plain hcontrol hquote hslash => simp [decode, hslash, Nat.not_lt.2 hcontrol]
  | escape hescape =>
    unfold escaped? at hescape
    split at hescape <;> cases hescape <;> simp [decode, escaped?]
  | code hcode hlow hhigh => simp [decode, hcode, hlow, hhigh]
  | pair hfirst hhigh hsecond hlow =>
    simp [decode, hfirst, hhigh, hsecond, hlow, isLowSurrogate_eq_false hhigh]

theorem decode_of_charsWritten {decoded inner : List Char} (h : CharsWritten decoded inner)
    (rest : List Char) : decode (inner ++ '"' :: rest) = .ok (decoded, rest) := by
  induction h with
  | nil => simp [decode]
  | cons hc _ ih => rw [List.append_assoc, decode_append hc, ih, prepend]

theorem exists_charsWritten_cons {c : Char} {text rest : List Char} (hc : CharWritten c text)
    {found : Except Fault (List Char × List Char)} {decoded behind : List Char}
    (ih : ∀ {decoded : List Char}, found = .ok (decoded, rest) →
      ∃ inner, CharsWritten decoded inner ∧ behind = inner ++ '"' :: rest)
    (h : prepend c found = .ok (decoded, rest)) :
    ∃ inner, CharsWritten decoded inner ∧ text ++ behind = inner ++ '"' :: rest := by
  obtain ⟨tail, hfound, rfl⟩ := prepend_eq_ok_iff.1 h
  obtain ⟨inner, htail, rfl⟩ := ih hfound
  exact ⟨text ++ inner, .cons hc htail, (List.append_assoc ..).symm⟩

theorem exists_charsWritten_of_decode {cs decoded rest : List Char}
    (h : decode cs = .ok (decoded, rest)) :
    ∃ inner, CharsWritten decoded inner ∧ cs = inner ++ '"' :: rest := by
  fun_induction decode cs generalizing decoded with
  | case2 behind =>
    cases h
    exact ⟨[], .nil, rfl⟩
  | case7 a b c d n hfirst _ hhigh e f g k behind m hsecond hlow ih =>
    exact exists_charsWritten_cons (.pair hfirst hhigh hsecond hlow) ih h
  | case13 a b c d behind n hcode hlow hhigh ih =>
    exact exists_charsWritten_cons
      (.code hcode (Bool.eq_false_iff.2 hlow) (Bool.eq_false_iff.2 hhigh)) ih h
  | case15 e behind _ _ c hescape ih => exact exists_charsWritten_cons (.escape hescape) ih h
  | case18 c behind hquote hend _ _ hmore hcontrol ih =>
    have hslash : c ≠ '\\' := by
      rintro rfl
      cases behind with
      | nil => exact hend rfl rfl
      | cons e behind => exact hmore e behind rfl rfl
    exact exists_charsWritten_cons (.plain (Nat.not_lt.1 hcontrol) hquote hslash) ih h
  | _ => cases h

theorem exists_behind_of_quotedWritten {q : Quoted} {text : List Char}
    (h : QuotedWritten q text) :
    ∃ behind, text = '"' :: behind ∧ ∀ rest, readQuoted (behind ++ rest) = (q, rest) := by
  cases q with
  | bad => cases h
  | good s =>
    obtain ⟨inner, hinner, rfl⟩ := h
    refine ⟨inner ++ ['"'], rfl, fun rest => ?_⟩
    rw [List.append_assoc, List.singleton_append, readQuoted, decode_of_charsWritten hinner]
    simp

theorem exists_quotedWritten_of_readQuoted {cs rest : List Char} {s : String}
    (h : readQuoted cs = (.good s, rest)) :
    ∃ behind, QuotedWritten (.good s) ('"' :: behind) ∧ cs = behind ++ rest := by
  unfold readQuoted at h
  cases hdecode : decode cs with
  | error fault =>
    rw [hdecode] at h
    cases hskip : skipString cs <;> simp [hskip] at h
  | ok pair =>
    obtain ⟨decoded, behind⟩ := pair
    simp only [hdecode, Prod.mk.injEq, Quoted.good.injEq] at h
    obtain ⟨rfl, rfl⟩ := h
    obtain ⟨inner, hinner, rfl⟩ := exists_charsWritten_of_decode hdecode
    exact ⟨inner ++ ['"'], ⟨inner, by rwa [String.toList_ofList], rfl⟩, by simp⟩

/-! ### Numbers -/

theorem readExponentPart_append {n : Numeral} {text rest : List Char}
    (h : ExponentWritten n.exponent text) (hrest : Ends rest) :
    readExponentPart n.negative n.whole n.fraction (text ++ rest) = (.number n, rest) := by
  obtain ⟨negative, whole, fraction, exponent⟩ := n
  cases exponent with
  | none =>
    obtain rfl : text = [] := h
    cases rest with
    | nil => rfl
    | cons c rest =>
      obtain ⟨-, -, he, hE⟩ := hrest c rfl
      simp [readExponentPart, he, hE]
  | some e =>
    obtain ⟨mark, sign, digits, hmark, hsign, hne, hdigits, rfl, rfl⟩ := h
    have hread : Numeral.readExponent? (sign ++ (digits ++ rest)) =
        some (signedValue sign digits, rest) :=
      Numeral.readExponent?_eq_some_iff.2
        ⟨sign, digits, hsign, hne, hdigits, fun c hc => (hrest c hc).1, rfl, rfl⟩
    simp [readExponentPart, hmark, hread]

theorem exists_exponentWritten {negative : Bool} {whole fraction cs rest : List Char} {v : Json}
    (h : readExponentPart negative whole fraction cs = (v, rest))
    (hv : ∀ fault skipFault, v ≠ .broken fault skipFault) :
    ∃ exponent text, v = .number ⟨negative, whole, fraction, exponent⟩ ∧
      ExponentWritten exponent text ∧ cs = text ++ rest := by
  unfold readExponentPart at h
  split at h
  case h_1 c behind =>
    split_ifs at h with hmark
    · split at h
      case h_1 e tail hread =>
        obtain ⟨rfl, rfl⟩ := Prod.mk.inj h
        obtain ⟨sign, digits, hsign, hne, hdigits, -, rfl, rfl⟩ :=
          Numeral.readExponent?_eq_some_iff.1 hread
        exact ⟨some _, c :: sign ++ digits, rfl,
          ⟨c, sign, digits, hmark, hsign, hne, hdigits, rfl, rfl⟩, by simp⟩
      case h_2 => exact absurd (Prod.mk.inj h).1.symm (hv _ _)
    · exact ⟨none, [], (Prod.mk.inj h).1.symm, rfl, (Prod.mk.inj h).2⟩
  case h_2 => exact ⟨none, [], (Prod.mk.inj h).1.symm, rfl, (Prod.mk.inj h).2⟩

/-- No digit goes on in front of what can follow the digits of a number. -/
theorem isDigit_head_exponent {e : Option ℤ} {text rest : List Char} (h : ExponentWritten e text)
    (hrest : Ends rest) : ∀ c ∈ (text ++ rest).head?, c.isDigit = false ∧ c ≠ '.' := by
  cases e with
  | none =>
    obtain rfl : text = [] := h
    exact fun c hc => ⟨(hrest c hc).1, (hrest c hc).2.1⟩
  | some e =>
    obtain ⟨mark, sign, digits, rfl | rfl, -, -, -, -, rfl⟩ := h <;> simp

theorem readFractionPart_append {n : Numeral} {fraction exponent rest : List Char}
    (hdigits : ∀ c ∈ n.fraction, c.isDigit) (hfraction : FractionWritten n.fraction fraction)
    (hexponent : ExponentWritten n.exponent exponent) (hrest : Ends rest) :
    readFractionPart n.negative n.whole (fraction ++ (exponent ++ rest)) = (.number n, rest) := by
  have hstop := isDigit_head_exponent hexponent hrest
  have hread := readExponentPart_append hexponent hrest
  rcases hfraction with ⟨hnone, rfl⟩ | ⟨hsome, rfl⟩
  · rw [List.nil_append, ← hread, hnone, readFractionPart]
    intro behind hpoint
    exact (hstop '.' (by simp [hpoint])).2 rfl
  · have htake : Numeral.takeDigits (n.fraction ++ (exponent ++ rest)) =
        (n.fraction, exponent ++ rest) :=
      Numeral.takeDigits_eq_iff.2 ⟨rfl, hdigits, fun c hc => (hstop c hc).1⟩
    simp [readFractionPart, htake, hsome, hread]

theorem exists_fractionWritten {negative : Bool} {whole cs rest : List Char} {v : Json}
    (h : readFractionPart negative whole cs = (v, rest))
    (hv : ∀ fault skipFault, v ≠ .broken fault skipFault) :
    ∃ fraction exponent text tail, v = .number ⟨negative, whole, fraction, exponent⟩ ∧
      (∀ c ∈ fraction, c.isDigit) ∧ FractionWritten fraction text ∧
      ExponentWritten exponent tail ∧ cs = text ++ (tail ++ rest) := by
  unfold readFractionPart at h
  split at h
  case h_1 behind =>
    cases htake : Numeral.takeDigits behind with
    | mk fraction behind' =>
      obtain ⟨rfl, hdigits, -⟩ := Numeral.takeDigits_eq_iff.1 htake
      simp only [htake, List.isEmpty_iff] at h
      split_ifs at h with hempty
      · exact absurd (Prod.mk.inj h).1.symm (hv _ _)
      · obtain ⟨exponent, text, rfl, hexponent, rfl⟩ := exists_exponentWritten h hv
        exact ⟨fraction, exponent, '.' :: fraction, text, rfl, hdigits, .inr ⟨hempty, rfl⟩,
          hexponent, rfl⟩
  case h_2 =>
    obtain ⟨exponent, text, rfl, hexponent, rfl⟩ := exists_exponentWritten h hv
    exact ⟨[], exponent, [], text, rfl, by simp, .inl ⟨rfl, rfl⟩, hexponent, rfl⟩

theorem readNumber_append {n : Numeral} {body rest : List Char} (h : MagnitudeWritten n body)
    (hrest : Ends rest) : readNumber n.negative (body ++ rest) = (.number n, rest) := by
  obtain ⟨fraction, exponent, hfraction, hexponent, rfl⟩ := h.parts
  have hread := readFractionPart_append h.fraction hfraction hexponent hrest
  have hstop : ∀ c ∈ (fraction ++ (exponent ++ rest)).head?, c.isDigit = false := by
    rcases hfraction with ⟨-, rfl⟩ | ⟨-, rfl⟩
    · exact fun c hc => (isDigit_head_exponent hexponent hrest c hc).1
    · simp
  have htake : Numeral.takeDigits (n.whole ++ (fraction ++ (exponent ++ rest))) =
      (n.whole, fraction ++ (exponent ++ rest)) :=
    Numeral.takeDigits_eq_iff.2 ⟨rfl, h.whole, hstop⟩
  rw [List.append_assoc, List.append_assoc, readNumber, htake, ← hread]
  split
  case h_1 heq => exact absurd (Prod.mk.inj heq).1 h.whole_ne_nil
  case h_2 heq =>
    rcases h.leading with hone | hnot
    · rw [hone] at heq
      simp at heq
    · rw [(Prod.mk.inj heq).1] at hnot
      simp at hnot
  case h_3 heq => rw [(Prod.mk.inj heq).1, (Prod.mk.inj heq).2]

theorem exists_magnitudeWritten {negative : Bool} {cs rest : List Char} {v : Json}
    (h : readNumber negative cs = (v, rest))
    (hv : ∀ fault skipFault, v ≠ .broken fault skipFault) :
    ∃ n body, v = .number n ∧ n.negative = negative ∧ MagnitudeWritten n body ∧
      cs = body ++ rest := by
  unfold readNumber at h
  cases htake : Numeral.takeDigits cs with
  | mk whole behind =>
    obtain ⟨rfl, hdigits, -⟩ := Numeral.takeDigits_eq_iff.1 htake
    rw [htake] at h
    split at h
    case h_1 => exact absurd (Prod.mk.inj h).1.symm (hv _ _)
    case h_2 => exact absurd (Prod.mk.inj h).1.symm (hv _ _)
    case h_3 whole' behind' hempty hzero heq =>
      obtain ⟨rfl, rfl⟩ := Prod.mk.inj heq
      obtain ⟨fraction, exponent, text, tail, rfl, hfraction, htext, htail, rfl⟩ :=
        exists_fractionWritten h hv
      refine ⟨_, whole ++ text ++ tail, rfl, rfl, ⟨hdigits, ?_, ?_, hfraction,
        text, tail, htext, htail, rfl⟩, by simp⟩
      · rintro rfl
        exact hempty rfl
      · cases whole with
        | nil => exact absurd rfl hempty
        | cons c digits =>
          by_cases hc : c = '0'
          · subst hc
            cases digits with
            | nil => exact .inl rfl
            | cons d digits => exact absurd rfl (hzero _ _)
          · exact .inr (by simpa using hc)

/-! ### Words -/

theorem readWord_append (value : Json) (letters rest : List Char) :
    readWord value letters (letters ++ rest) = (value, rest) := by
  induction letters with
  | nil => rfl
  | cons c letters ih => simpa [readWord] using ih

theorem eq_of_readWord {value v : Json} {letters cs rest : List Char}
    (h : readWord value letters cs = (v, rest))
    (hv : ∀ fault skipFault, v ≠ .broken fault skipFault) : v = value ∧ cs = letters ++ rest := by
  induction letters generalizing cs with
  | nil =>
    obtain ⟨rfl, rfl⟩ := Prod.mk.inj h
    exact ⟨rfl, rfl⟩
  | cons l letters ih =>
    cases cs with
    | nil => exact absurd (Prod.mk.inj h).1.symm (hv _ _)
    | cons c cs =>
      rw [readWord] at h
      split_ifs at h with hc
      · obtain ⟨rfl, rfl⟩ := ih h
        exact ⟨rfl, by rw [hc, List.cons_append]⟩
      · exact absurd (Prod.mk.inj h).1.symm (hv _ _)

end CarrierTape.Json
