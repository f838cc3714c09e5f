import CarrierTape.Json.Printer
import CarrierTape.Proofs.Json.Decoder
import CarrierTape.Proofs.Json.Number

/-!
What is printed for a tree is one of the ways to write it, and is read without a fault
(`Printable`). So a reader gets from the text of a tree what it gets from the tree
(`decodeText_print`).
-/

namespace CarrierTape.Json

open Decimal

/-! ### Strings -/

theorem hexDigit?_digitChar : ∀ d < 16, hexDigit? (Nat.digitChar d) = some d := by
  decide

theorem charWritten_code {c a b : Char} {high low : ℕ} (ha : hexDigit? a = some high)
    (hb : hexDigit? b = some low) (hc : c.toNat = high * 16 + low) (hsmall : c.toNat < 32) :
    CharWritten c ['\\', 'u', '0', '0', a, b] := by
  have hzero : hexDigit? '0' = some 0 := rfl
  have hcode : hexCode? '0' '0' a b = some c.toNat := by simp [hexCode?, hzero, ha, hb, hc]
  have hwritten := CharWritten.code hcode
    (by simp [isLowSurrogate]; omega) (by simp [isHighSurrogate]; omega)
  rwa [Char.ofNat_toNat] at hwritten

theorem charWritten_printChar (c : Char) : CharWritten c (printChar c) := by
  unfold printChar
  split_ifs with hescape hone htwo
  · rcases hescape with rfl | rfl
    · exact .escape rfl
    · exact .escape rfl
  · rw [Nat.toDigits_of_lt_base hone]
    exact charWritten_code (hexDigit?_digitChar 0 (by decide)) (hexDigit?_digitChar _ hone)
      (by omega) (by omega)
  · have hdigits : Nat.toDigits 16 c.toNat = [Nat.digitChar 1, Nat.digitChar (c.toNat % 16)] := by
      have hhigh : c.toNat / 16 = 1 := by omega
      rw [Nat.toDigits_eq_if (by decide), if_neg hone, hhigh, Nat.toDigits_of_lt_base (by decide)]
      rfl
    rw [hdigits]
    exact charWritten_code (hexDigit?_digitChar 1 (by decide))
      (hexDigit?_digitChar _ (Nat.mod_lt _ (by decide))) (by omega) htwo
  · rw [not_or] at hescape
    exact .plain (Nat.not_lt.1 htwo) hescape.1 hescape.2

theorem charsWritten_flatMap (cs : List Char) : CharsWritten cs (cs.flatMap printChar) := by
  induction cs with
  | nil => exact .nil
  | cons c cs ih => exact .cons (charWritten_printChar c) ih

theorem quotedWritten_printQuoted (s : String) :
    QuotedWritten (.good s) (printQuoted (.good s)) :=
  ⟨_, charsWritten_flatMap _, rfl⟩

/-! ### Numbers -/

theorem exponentWritten_exponentText (e : Option ℤ) :
    ExponentWritten e (Numeral.exponentText e) := by
  have hdigits (n : ℕ) : ∀ c ∈ Nat.toDigits 10 n, c.isDigit := fun _ hc =>
    Nat.isDigit_of_mem_toDigits (by decide) (by decide) hc
  match e with
  | none => exact rfl
  | some (.ofNat n) =>
    exact ⟨'e', ['+'], _, .inl rfl, .inr (.inl rfl), Nat.toDigits_ne_nil, hdigits n,
      by simp [signedValue], rfl⟩
  | some (.negSucc n) =>
    exact ⟨'e', ['-'], _, .inl rfl, .inr (.inr rfl), Nat.toDigits_ne_nil, hdigits (n + 1),
      by simp [signedValue, Int.negSucc_eq], rfl⟩

/-- Digits that may stand in front of the point. -/
structure WholeDigits (digits : List Char) : Prop where
  digit : ∀ c ∈ digits, c.isDigit
  ne_nil : digits ≠ []
  leading : digits = ['0'] ∨ digits.head? ≠ some '0'

theorem numberWritten_text {n : Numeral} (hwhole : WholeDigits n.whole)
    (hfraction : ∀ c ∈ n.fraction, c.isDigit) : NumberWritten n n.text := by
  refine ⟨n.whole ++ n.fractionText ++ Numeral.exponentText n.exponent, ⟨hwhole.digit,
    hwhole.ne_nil, hwhole.leading, hfraction, n.fractionText, _, ?_,
    exponentWritten_exponentText n.exponent, rfl⟩, ?_⟩
  · by_cases hempty : n.fraction = []
    · exact .inl ⟨hempty, by simp [Numeral.fractionText, hempty]⟩
    · exact .inr ⟨hempty, by simp [Numeral.fractionText, hempty]⟩
  · simp [Numeral.text, Numeral.fractionText, Style.sign, List.append_assoc]

theorem wholeDigits_toDigits (n : ℕ) : WholeDigits (Nat.toDigits 10 n) where
  digit _ hc := Nat.isDigit_of_mem_toDigits (by decide) (by decide) hc
  ne_nil := Nat.toDigits_ne_nil
  leading := by
    rcases Nat.eq_zero_or_pos n with rfl | hpos
    · exact .inl (Nat.toDigits_zero 10)
    · exact .inr (Fixed.head?_toDigits_ne_zero hpos)

theorem wholeDigits_take {n k : ℕ} (hn : n ≠ 0) (hk : k ≠ 0) :
    WholeDigits ((Nat.toDigits 10 n).take k) where
  digit c hc := (wholeDigits_toDigits n).digit c (List.mem_of_mem_take hc)
  ne_nil := by simp [hk, (wholeDigits_toDigits n).ne_nil]
  leading := by
    right
    rw [List.head?_take, if_neg hk]
    exact Fixed.head?_toDigits_ne_zero (Nat.pos_of_ne_zero hn)

theorem wholeDigits_append {n : ℕ} (hn : n ≠ 0) (zeros : ℕ) :
    WholeDigits (Nat.toDigits 10 n ++ List.replicate zeros '0') where
  digit c hc := by
    rcases List.mem_append.1 hc with hdigit | hzero
    · exact (wholeDigits_toDigits n).digit c hdigit
    · rw [(List.mem_replicate.1 hzero).2]
      rfl
  ne_nil := by simp [(wholeDigits_toDigits n).ne_nil]
  leading := by
    right
    rw [List.head?_append_of_ne_nil _ (wholeDigits_toDigits n).ne_nil]
    exact Fixed.head?_toDigits_ne_zero (Nat.pos_of_ne_zero hn)

theorem numberWritten_ofDecimal (negative : Bool) {d : Decimal} (hd : d.digits ≠ 0) :
    NumberWritten (.ofDecimal negative d) (Numeral.ofDecimal negative d).text := by
  have hdigits := (wholeDigits_toDigits d.digits).digit
  unfold Numeral.ofDecimal
  simp only []
  split_ifs with hfar hsmall hinside
  · exact numberWritten_text (wholeDigits_take hd one_ne_zero)
      fun c hc => hdigits c (List.mem_of_mem_drop hc)
  · refine numberWritten_text (wholeDigits_toDigits 0) fun c hc => ?_
    rcases List.mem_append.1 hc with hzero | hdigit
    · rw [(List.mem_replicate.1 hzero).2]
      rfl
    · exact hdigits c hdigit
  · exact numberWritten_text (wholeDigits_take hd (by omega))
      fun c hc => hdigits c (List.mem_of_mem_drop hc)
  · exact numberWritten_text (wholeDigits_append hd _) (by simp)

/-! ### Trees -/

/-- The tree is printed as it can be written, and is read without a fault. -/
structure Printable (depth : ℕ) (v : Json) : Prop where
  written : Written v (print v)
  check : check depth v = .ok ()

theorem printable_ofString (depth : ℕ) (s : String) : Printable depth (ofString s) :=
  ⟨quotedWritten_printQuoted s, rfl⟩

theorem number?_ofNat {n : ℕ} (hn : n < 2 ^ 64) :
    (⟨false, Nat.toDigits 10 n, [], none⟩ : Numeral).number? = some (.integer n) := by
  have hvalue : Nat.ofDigitChars 10 (Nat.toDigits 10 n) 0 = n := Nat.ofDigitChars_ten_toDigits
  have htake : Numeral.takeWhole 0 0 (Nat.toDigits 10 n) = (n, 0) := by
    rw [Numeral.takeWhole_eq (by rwa [hvalue]), hvalue]
  simp [Numeral.number?, Numeral.integer?, Numeral.isWhole, htake]

theorem printable_ofNat (depth : ℕ) {n : ℕ} (hn : n < 2 ^ 64) : Printable depth (ofNat n) where
  written := numberWritten_text (wholeDigits_toDigits n) (by simp)
  check := by simp [ofNat, Json.check, number?_ofNat hn]

theorem number?_ofNumber {x : Binary64} (h : x.FewDigits) :
    ∃ n, ofNumber x = .number n ∧ NumberWritten n n.text ∧ n.number? = some (.float x) := by
  obtain ⟨s, m, hm, digits, places, rfl, hdigits, hplaces, hnear⟩ := h.exists_nearest
  refine ⟨_, rfl, ?_, Numeral.number?_ofDecimal h⟩
  by_cases hzero : m = 0
  · subst hzero
    have hshortest : shortest .even 0 = ⟨0, 0⟩ := rfl
    have hfraction : (Numeral.ofDecimal s ⟨0, 0⟩).fraction = ['0'] := rfl
    rw [hshortest]
    refine numberWritten_text (wholeDigits_toDigits 0) fun c hc => ?_
    rw [hfraction, List.mem_singleton] at hc
    rw [hc]
    rfl
  · have hreads := (shortest_small .even hdigits hplaces hnear).1
    exact numberWritten_ofDecimal s (hreads.digits_ne_zero hzero)

theorem printable_ofNumber (depth : ℕ) {x : Binary64} (h : x.FewDigits) :
    Printable depth (ofNumber x) := by
  obtain ⟨n, hn, hwritten, hread⟩ := number?_ofNumber h
  rw [hn]
  exact ⟨hwritten, by simp [Json.check, hread]⟩

/-! ### Arrays and objects -/

theorem Padded.bare {P : List Char → Prop} {cs : List Char} (h : P cs) : Padded P cs :=
  ⟨[], cs, [], by simp [Space], h, by simp [Space], by simp⟩

theorem moreItemsWritten_printItems {vs : List Json} (h : ∀ v ∈ vs, Written v (print v)) :
    MoreItemsWritten (.ofList vs) (printItems (.ofList vs)) := by
  induction vs with
  | nil => exact rfl
  | cons v vs ih =>
    rw [List.forall_mem_cons] at h
    exact ⟨_, _, .bare h.1, ih h.2, rfl⟩

theorem written_array {vs : List Json} (h : ∀ v ∈ vs, Written v (print v)) :
    Written (.array (.ofList vs)) (print (.array (.ofList vs))) := by
  cases vs with
  | nil => exact ⟨_, ⟨[], by simp [Space], rfl⟩, rfl⟩
  | cons v vs =>
    rw [List.forall_mem_cons] at h
    exact ⟨_, ⟨_, _, .bare h.1, moreItemsWritten_printItems h.2, rfl⟩, rfl⟩

theorem moreMembersWritten_printMembers {fields : List (String × Json)}
    (h : ∀ kv ∈ fields, Written kv.2 (print kv.2)) :
    MoreMembersWritten (.ofList fields) (printMembers (.ofList fields)) := by
  induction fields with
  | nil => exact rfl
  | cons kv fields ih =>
    obtain ⟨key, v⟩ := kv
    rw [List.forall_mem_cons] at h
    exact ⟨_, _, _, .bare (quotedWritten_printQuoted key), .bare h.1, ih h.2, rfl⟩

theorem written_ofFields {fields : List (String × Json)}
    (h : ∀ kv ∈ fields, Written kv.2 (print kv.2)) :
    Written (ofFields fields) (print (ofFields fields)) := by
  cases fields with
  | nil => exact ⟨_, ⟨[], by simp [Space], rfl⟩, rfl⟩
  | cons kv fields =>
    obtain ⟨key, v⟩ := kv
    rw [List.forall_mem_cons] at h
    exact ⟨_, ⟨_, _, _, .bare (quotedWritten_printQuoted key), .bare h.1,
      moreMembersWritten_printMembers h.2, rfl⟩, rfl⟩

theorem printable_ofFields {depth : ℕ} {fields : List (String × Json)}
    (h : ∀ kv ∈ fields, Printable depth kv.2) : Printable (depth + 1) (ofFields fields) where
  written := written_ofFields fun kv hkv => (h kv hkv).written
  check := check_object_iff.2
    ⟨Nat.succ_ne_zero depth, checkMembers_ofList_iff.2 fun kv hkv => (h kv hkv).check⟩

theorem spells_print {v : Json} (h : Written v (print v)) : Spells (String.ofList (print v)) v := by
  rw [Spells, String.toList_ofList]
  exact .bare h

/-- A reader gets from a printed text what it gets from the tree. -/
theorem decodeText_print {α : Type} (read : Decoder α) {v : Json} (h : Written v (print v)) :
    decodeText read (String.ofList (print v)) = read maxDepth v :=
  decodeText_of_spells (spells_print h)

end CarrierTape.Json
