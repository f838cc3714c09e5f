import CarrierTape.Proofs.Decimal.Value

/-!
What the readers of digits and of exponents accept, as equivalences. Lengths and documents
have grammars of their own for the rest of a numeral, and share these two.
-/

namespace CarrierTape.Decimal

/-- A sign, or none. -/
def IsSign (cs : List Char) : Prop :=
  cs = [] ∨ cs = ['+'] ∨ cs = ['-']

def signedValue (sign digits : List Char) : ℤ :=
  if sign = ['-'] then -(Nat.ofDigitChars 10 digits 0 : ℤ) else Nat.ofDigitChars 10 digits 0

namespace Numeral

theorem takeDigits_eq_iff {cs digits rest : List Char} :
    takeDigits cs = (digits, rest) ↔
      cs = digits ++ rest ∧ (∀ c ∈ digits, c.isDigit) ∧ ∀ c ∈ rest.head?, c.isDigit = false := by
  constructor
  · intro h
    obtain ⟨rfl, rfl⟩ := Prod.mk.inj h
    refine ⟨(List.takeWhile_append_dropWhile).symm, fun c hc => List.mem_takeWhile_imp hc, ?_⟩
    intro c hc
    have hhead := List.head?_dropWhile_not Char.isDigit cs
    rw [Option.mem_def.1 hc] at hhead
    simpa using hhead
  · rintro ⟨rfl, hdigits, hrest⟩
    exact takeDigits_append hdigits hrest

theorem exists_sign (cs : List Char) : ∃ sign rest, IsSign sign ∧ cs = sign ++ rest ∧
    (sign = [] → ∀ c ∈ rest.head?, c ≠ '+' ∧ c ≠ '-') := by
  cases cs with
  | nil => exact ⟨[], [], .inl rfl, rfl, by simp⟩
  | cons c rest =>
    by_cases hplus : c = '+'
    · exact ⟨['+'], rest, .inr (.inl rfl), by rw [hplus]; rfl, by simp⟩
    by_cases hminus : c = '-'
    · exact ⟨['-'], rest, .inr (.inr rfl), by rw [hminus]; rfl, by simp⟩
    exact ⟨[], c :: rest, .inl rfl, rfl, by simp [hplus, hminus]⟩

theorem readExponent?_append {sign cs : List Char} (hsign : IsSign sign)
    (hcs : sign = [] → ∀ c ∈ cs.head?, c ≠ '+' ∧ c ≠ '-') :
    readExponent? (sign ++ cs) =
      if (takeDigits cs).1.isEmpty then none
      else some (signedValue sign (takeDigits cs).1, (takeDigits cs).2) := by
  rcases hsign with rfl | rfl | rfl
  · cases cs with
    | nil => rfl
    | cons c rest =>
      obtain ⟨hplus, hminus⟩ := hcs rfl c rfl
      simp [readExponent?, signedValue, hplus, hminus]
  · simp [readExponent?, signedValue]
  · simp [readExponent?, signedValue]

theorem ne_sign_of_isDigit {c : Char} (h : c.isDigit) : c ≠ '+' ∧ c ≠ '-' := by
  constructor <;> rintro rfl <;> exact absurd h (by decide)

/-- An exponent is a sign, which may be left out, and all the digits that follow. -/
theorem readExponent?_eq_some_iff {cs rest : List Char} {e : ℤ} :
    readExponent? cs = some (e, rest) ↔
      ∃ sign digits, IsSign sign ∧ digits ≠ [] ∧ (∀ c ∈ digits, c.isDigit) ∧
        (∀ c ∈ rest.head?, c.isDigit = false) ∧ cs = sign ++ (digits ++ rest) ∧
        e = signedValue sign digits := by
  constructor
  · intro h
    obtain ⟨sign, behind, hsign, rfl, hone⟩ := exists_sign cs
    rw [readExponent?_append hsign hone] at h
    obtain ⟨hsplit, hdigits, hrest⟩ :=
      takeDigits_eq_iff.1 (Prod.mk.eta (p := takeDigits behind)).symm
    split_ifs at h with hempty
    simp only [Option.some.injEq, Prod.mk.injEq] at h
    obtain ⟨rfl, rfl⟩ := h
    exact ⟨sign, _, hsign, by simpa using hempty, hdigits, hrest, by rw [← hsplit], rfl⟩
  · rintro ⟨sign, digits, hsign, hne, hdigits, hrest, rfl, rfl⟩
    have htake : takeDigits (digits ++ rest) = (digits, rest) :=
      takeDigits_eq_iff.2 ⟨rfl, hdigits, hrest⟩
    have hhead : ∀ c ∈ (digits ++ rest).head?, c ≠ '+' ∧ c ≠ '-' := by
      obtain ⟨c, tail, rfl⟩ := List.exists_cons_of_ne_nil hne
      intro x hx
      obtain rfl : c = x := by simpa using hx
      exact ne_sign_of_isDigit (hdigits c List.mem_cons_self)
    rw [readExponent?_append hsign fun _ => hhead, htake]
    simp [hne]

end Numeral

end CarrierTape.Decimal
