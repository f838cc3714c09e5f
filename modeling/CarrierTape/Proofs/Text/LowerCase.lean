import CarrierTape.Text.LowerCase
import Mathlib.Tactic.Common

/-!
Lower case inside and outside ASCII. Letters outside it have no lower case inside, but for the
Kelvin sign and the capital I with a dot, whose own dot stays outside. So words that are spelled
without a `k` are recognised by the ASCII letters alone (`eq_lowerCase_iff`).
-/

namespace CarrierTape.Text

theorem CaseRun.of_lower?_eq_some {run : CaseRun} {c n : Nat} (h : run.lower? c = some n) :
    run.first ≤ c ∧ c ≤ run.last ∧ n = run.image + (c - run.first) := by
  unfold lower? at h
  split_ifs at h with hin
  exact ⟨hin.1, hin.2.1, (Option.some.inj h).symm⟩

/-- Runs outside ASCII have their lower cases outside it too, and not beyond the last character.
The one exception is the Kelvin sign. -/
def CaseRun.Apart (run : CaseRun) : Prop :=
  128 ≤ run.image ∧
    (run.image + (run.last - run.first) < 0xd800 ∨
      0xdfff < run.image ∧ run.image + (run.last - run.first) < 0x110000) ∨
  run.last = run.first ∧ run.image = 0x6b

instance (run : CaseRun) : Decidable run.Apart :=
  inferInstanceAs (Decidable (_ ∨ _))

theorem apart_of_mem_caseRuns : ∀ run ∈ caseRuns, 128 ≤ run.last → run.Apart := by
  decide +kernel

theorem lowerChars_of_ascii {c : Char} (h : c.toNat < 128) : lowerChars c = [c.toLower] := by
  have hall : ∀ n < 128, lowerChars (.ofNat n) = [(Char.ofNat n).toLower] := by decide +kernel
  simpa using hall c.toNat h

theorem toLower_of_not_ascii {c : Char} (h : 128 ≤ c.toNat) : c.toLower = c := by
  have hcapital : ¬ (c.val ≥ 'A'.val ∧ c.val ≤ 'Z'.val) := by
    rintro ⟨-, hle⟩
    have hbound : c.toNat ≤ 90 := hle
    omega
  exact dif_neg hcapital

theorem CaseRun.Apart.lower {run : CaseRun} (h : run.Apart) {c n : Nat}
    (hn : run.lower? c = some n) : 128 ≤ (Char.ofNat n).toNat ∨ Char.ofNat n = 'k' := by
  obtain ⟨hfirst, hlast, rfl⟩ := of_lower?_eq_some hn
  rcases h with ⟨hlow, hvalid⟩ | ⟨hone, hkelvin⟩
  · left
    have hchar : (run.image + (c - run.first)).isValidChar := by
      unfold Nat.isValidChar
      omega
    have hnat : (Char.ofNat (run.image + (c - run.first))).toNat = run.image + (c - run.first) := by
      rw [Char.ofNat, dif_pos hchar]
      rfl
    omega
  · right
    have heq : run.image + (c - run.first) = 0x6b := by omega
    rw [heq]

theorem exists_mem_lowerChars {c : Char} (h : 128 ≤ c.toNat) :
    ∃ d ∈ lowerChars c, 128 ≤ d.toNat ∨ d = 'k' := by
  unfold lowerChars
  split_ifs with hdotted
  · exact ⟨.ofNat 0x307, by simp, .inl (by decide)⟩
  · refine ⟨_, List.mem_singleton_self _, ?_⟩
    cases hfound : caseRuns.findSome? (·.lower? c.toNat) with
    | none =>
      rw [Option.getD_none, Char.ofNat_toNat]
      exact .inl h
    | some n =>
      obtain ⟨run, hmem, hlower⟩ := List.exists_of_findSome?_eq_some hfound
      obtain ⟨-, hlast, -⟩ := CaseRun.of_lower?_eq_some hlower
      exact (apart_of_mem_caseRuns run hmem (Nat.le_trans h hlast)).lower hlower

variable (finalSigma : List Char → List Char → Bool)

theorem lowerCaseFrom_of_ascii {text : List Char} (h : ∀ c ∈ text, c.toNat < 128) :
    ∀ before, lowerCaseFrom finalSigma before text = text.map Char.toLower := by
  induction text with
  | nil => exact fun _ => rfl
  | cons c rest ih =>
    intro before
    rw [List.forall_mem_cons] at h
    have hsigma : c.toNat ≠ 0x3a3 := by omega
    rw [lowerCaseFrom, if_neg hsigma, lowerChars_of_ascii h.1, ih h.2, List.map_cons,
      List.singleton_append]

/-- One letter outside ASCII is enough for the whole text to show it. -/
theorem exists_mem_lowerCaseFrom {text : List Char} {c : Char} (hc : c ∈ text)
    (h : 128 ≤ c.toNat) :
    ∀ before, ∃ d ∈ lowerCaseFrom finalSigma before text, 128 ≤ d.toNat ∨ d = 'k' := by
  induction text with
  | nil => simp at hc
  | cons first rest ih =>
    intro before
    rw [lowerCaseFrom]
    rcases List.mem_cons.1 hc with rfl | hrest
    · split_ifs
      · exact ⟨.ofNat 0x3c2, by simp, .inl (by decide)⟩
      · exact ⟨.ofNat 0x3c3, by simp, .inl (by decide)⟩
      · obtain ⟨d, hd, hout⟩ := exists_mem_lowerChars h
        exact ⟨d, List.mem_append_left _ hd, hout⟩
    · obtain ⟨d, hd, hout⟩ := ih hrest (before ++ [first])
      exact ⟨d, List.mem_append_right _ hd, hout⟩

/-- Words of ASCII letters other than `k` are found by their ASCII letters. -/
theorem eq_lowerCase_iff {word text : List Char} (hword : ∀ d ∈ word, d.toNat < 128 ∧ d ≠ 'k') :
    word = lowerCase finalSigma text ↔ word = text.map Char.toLower := by
  by_cases hascii : ∀ c ∈ text, c.toNat < 128
  · rw [lowerCase, lowerCaseFrom_of_ascii finalSigma hascii]
  · -- neither of the two is a word, as both keep something outside
    obtain ⟨c, hc, hout⟩ : ∃ c ∈ text, 128 ≤ c.toNat := by simpa using hascii
    constructor
    · rintro rfl
      obtain ⟨d, hd, hfar | rfl⟩ := exists_mem_lowerCaseFrom finalSigma hc hout []
      · exact absurd (hword d hd).1 (Nat.not_lt.2 hfar)
      · exact absurd rfl (hword _ hd).2
    · rintro rfl
      have hsame := hword c (List.mem_map.2 ⟨c, hc, toLower_of_not_ascii hout⟩)
      exact absurd hsame.1 (Nat.not_lt.2 hout)

-- Words with a `k` are left out for the Kelvin sign.
example : lowerCase (fun _ _ => false) ['o', .ofNat 0x212a] = ['o', 'k'] ∧
    ['o', Char.ofNat 0x212a].map Char.toLower ≠ ['o', 'k'] := by
  decide +kernel

end CarrierTape.Text
