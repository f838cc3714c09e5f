import CarrierTape.Proofs.Binary64.Exact
import CarrierTape.Proofs.Decimal.Fixed
import CarrierTape.Proofs.Decimal.Value
import Mathlib.Data.List.DropRight

/-!
Written numbers are canonical decimals. A text is determined by a signed count of
units of 10^-places, and the count is the one nearest to the exact value. Everything
else follows from the count: which numbers share a text, and that the texts keep
the order of the numbers (`format_canonical`).
-/

namespace CarrierTape

namespace Decimal

/-- Written as `-?(0|[1-9][0-9]*)(.F)?`, where the fraction `F` has at most `places`
digits and does not end in zero. -/
structure Numeral.Canonical (places : Nat) (n : Numeral) : Prop extends n.Plain where
  leading : n.whole = ['0'] ∨ n.whole.head? ≠ some '0'
  places : n.fraction.length ≤ places
  trailing : n.fraction.getLast? ≠ some '0'

namespace Fixed

open Binary64

/-- The shortest numeral for so many units of 10^-places. -/
def numeral (places : Nat) (k : ℤ) : Numeral where
  negative := k < 0
  whole := wholeDigits places k.natAbs
  fraction := dropLastZeros (fractionDigits places k.natAbs)
  exponent := none

/-! ### Digits -/

theorem head?_toDigits_ne_zero {n : Nat} (h : 0 < n) : (Nat.toDigits 10 n).head? ≠ some '0' := by
  induction n using Nat.strongRecOn with
  | ind n ih =>
    rw [Nat.toDigits_eq_if (by decide)]
    split
    · simp [h.ne']
    · have hrest := ih (n / 10) (by omega) (by omega)
      have hne : Nat.toDigits 10 (n / 10) ≠ [] := Nat.toDigits_ne_nil
      obtain ⟨c, cs, hcons⟩ := List.exists_cons_of_ne_nil hne
      rw [hcons] at hrest ⊢
      simpa using hrest

theorem length_fractionDigits (places n : Nat) : (fractionDigits places n).length = places := by
  unfold fractionDigits
  split
  case isTrue hzero => rw [hzero, List.length_nil]
  case isFalse hpos =>
    have hmod : n % 10 ^ places < 10 ^ places := Nat.mod_lt n (by positivity)
    rw [List.length_leftpad]
    exact max_eq_left ((Nat.length_toDigits_le_iff (by decide) (by omega)).2 hmod)

theorem ofDigitChars_fractionDigits (places n : Nat) :
    Nat.ofDigitChars 10 (fractionDigits places n) 0 = n % 10 ^ places := by
  unfold fractionDigits
  split
  case isTrue hzero => simp [hzero, Nat.mod_one]
  case isFalse hpos => simp [List.leftpad, Nat.ofDigitChars_append]

theorem ofDigitChars_digits (places n : Nat) :
    Nat.ofDigitChars 10 (wholeDigits places n ++ fractionDigits places n) 0 = n := by
  rw [Nat.ofDigitChars_append, Nat.ofDigitChars_eq_ofDigitChars_zero, length_fractionDigits,
    ofDigitChars_fractionDigits, wholeDigits, Nat.ofDigitChars_ten_toDigits, Nat.div_add_mod]

theorem dropLastZeros_eq (digits : List Char) :
    dropLastZeros digits = digits.rdropWhile (· == '0') := rfl

theorem dropLastZeros_append_replicate (digits : List Char) :
    dropLastZeros digits ++ List.replicate (digits.length - (dropLastZeros digits).length) '0' =
      digits := by
  have hsplit : dropLastZeros digits ++ digits.rtakeWhile (· == '0') = digits :=
    List.rdropWhile_append_rtakeWhile
  have hzeros : digits.rtakeWhile (· == '0') =
      List.replicate (digits.rtakeWhile (· == '0')).length '0' :=
    List.eq_replicate_of_mem fun c hc => by simpa using List.mem_rtakeWhile_imp hc
  have hlength : digits.length - (dropLastZeros digits).length =
      (digits.rtakeWhile (· == '0')).length := by
    have htotal := congrArg List.length hsplit
    rw [List.length_append] at htotal
    omega
  rw [hlength, ← hzeros, hsplit]

theorem length_dropLastZeros_le (digits : List Char) :
    (dropLastZeros digits).length ≤ digits.length :=
  (List.rdropWhile_prefix (· == '0') digits).length_le

theorem getLast?_dropLastZeros_ne (digits : List Char) :
    (dropLastZeros digits).getLast? ≠ some '0' := by
  intro hlast
  have hne : dropLastZeros digits ≠ [] := by
    intro hnil
    simp [hnil] at hlast
  have hzero : (dropLastZeros digits).getLast hne = '0' := by
    rwa [List.getLast?_eq_some_getLast hne, Option.some.injEq] at hlast
  have hlastNot := List.rdropWhile_last_not (· == '0') digits hne
  simp only [← dropLastZeros_eq, hzero] at hlastNot
  exact hlastNot rfl

/-! ### The numeral of a count -/

theorem significand_numeral (places : Nat) (k : ℤ) :
    (numeral places k).significand * 10 ^ (places - (numeral places k).fraction.length) =
      k.natAbs := by
  have hdigits := ofDigitChars_digits places k.natAbs
  rw [← dropLastZeros_append_replicate (fractionDigits places k.natAbs), ← List.append_assoc,
    Nat.ofDigitChars_append, Nat.ofDigitChars_replicate_zero, length_fractionDigits] at hdigits
  rw [Nat.mul_comm]
  exact hdigits

theorem canonical_numeral (places : Nat) (k : ℤ) : (numeral places k).Canonical places where
  whole := Nat.toDigits_ne_nil
  wholeDigits _ hc := Nat.isDigit_of_mem_toDigits (by decide) (by decide) hc
  fractionDigits _ hc := isDigit_of_mem_fractionDigits (mem_of_mem_dropLastZeros hc)
  exponent := rfl
  leading := by
    rcases Nat.eq_zero_or_pos (k.natAbs / 10 ^ places) with hzero | hpos
    · exact .inl (by simp [numeral, wholeDigits, hzero])
    · exact .inr (head?_toDigits_ne_zero hpos)
  places := (length_dropLastZeros_le _).trans (length_fractionDigits places k.natAbs).le
  trailing := getLast?_dropLastZeros_ne _

theorem toRat_numeral (places : Nat) (k : ℤ) : (numeral places k).toRat = k / 10 ^ places := by
  have hle : (numeral places k).fraction.length ≤ places := (canonical_numeral places k).places
  have hscale : (numeral places k).scale = -((numeral places k).fraction.length : ℤ) := by
    simp [Numeral.scale, numeral]
  have hsig : ((numeral places k).significand : ℚ) *
      10 ^ (places - (numeral places k).fraction.length) = |(k : ℚ)| := by
    rw [← Int.cast_abs, Int.abs_eq_natAbs]
    exact_mod_cast significand_numeral places k
  have hsign : (if (numeral places k).negative then (-1 : ℚ) else 1) * |(k : ℚ)| = k := by
    rcases lt_or_ge k 0 with hneg | hnonneg
    · simp [numeral, hneg, abs_of_neg (Int.cast_lt_zero.2 hneg)]
    · simp [numeral, hnonneg.not_gt, abs_of_nonneg (Int.cast_nonneg hnonneg)]
  have hpow : (10 : ℚ) ^ places = 10 ^ (places - (numeral places k).fraction.length) *
      10 ^ (numeral places k).fraction.length := by
    rw [← pow_add, Nat.sub_add_cancel hle]
  rw [eq_div_iff (by positivity), Numeral.toRat, hscale, zpow_neg, zpow_natCast, hpow]
  conv_rhs => rw [← hsign, ← hsig]
  field_simp

theorem signed_lt_zero_iff (s : Bool) (n : Nat) : signed s n < 0 ↔ s = true ∧ n ≠ 0 := by
  cases s with
  | false => simp
  | true => simp [Nat.pos_iff_ne_zero]

theorem stripped_finite (places : Nat) (s : Bool) (m : Nat) (h : OnGrid m) :
    stripped places (.finite s m h) = (numeral places (signed s (count places m))).text := by
  have hsign : (s && count places m != 0) = decide (signed s (count places m) < 0) := by
    rw [Bool.eq_iff_iff, decide_eq_true_eq, signed_lt_zero_iff]
    simp
  rw [(canonical_numeral places _).text_eq, stripped, hsign]
  simp only [numeral, Numeral.fractionText, natAbs_signed, join]
  split
  · rw [List.append_nil]
  · rfl

theorem nearestEven_count (places : Nat) (s : Bool) (m : Nat) (h : OnGrid m) :
    NearestEven ((finite s m h).toRat * 10 ^ places) (signed s (count places m)) := by
  have hcount := nearestEven_roundQuotient (m * 10 ^ places) unit_pos
  have hexact : (m : ℚ) / unit * 10 ^ places = ((m * 10 ^ places : Nat) : ℚ) / unit := by
    push_cast
    ring
  cases s with
  | false =>
    rw [toRat, units_finite, signed_false, signed_false, Int.cast_natCast, hexact]
    exact hcount
  | true =>
    rw [toRat, units_finite, signed_true, signed_true, Int.cast_neg, Int.cast_natCast, neg_div,
      neg_mul, hexact]
    exact hcount.neg

theorem eq_zero_of_numeral {places : Nat} {k : ℤ} (hwhole : (numeral places k).whole = ['0'])
    (hfraction : (numeral places k).fraction = []) : k = 0 := by
  have hsig := significand_numeral places k
  rw [Numeral.significand, hwhole, hfraction] at hsig
  have hzero : Nat.ofDigitChars 10 ['0'] 0 = 0 := rfl
  rw [List.append_nil, hzero, Nat.zero_mul] at hsig
  exact Int.natAbs_eq_zero.1 hsig.symm

theorem text_numeral_ne (places : Nat) (k : ℤ) : (numeral places k).text ≠ ['-', '0'] := by
  intro htext
  have hcanonical := canonical_numeral places k
  obtain ⟨c, cs, hwhole⟩ := List.exists_cons_of_ne_nil hcanonical.whole
  rw [hcanonical.text_eq, hwhole] at htext
  by_cases hneg : k < 0
  · have hsign : (numeral places k).negative = true := by simp [numeral, hneg]
    simp only [hsign, Style.sign, if_true, List.cons_append, List.nil_append, List.cons.injEq,
      List.append_eq_nil_iff, true_and] at htext
    obtain ⟨rfl, rfl, hfraction⟩ := htext
    have hnil : (numeral places k).fraction = [] := by
      by_contra hne
      simp [Numeral.fractionText, hne] at hfraction
    have hzero := eq_zero_of_numeral hwhole hnil
    omega
  · have hsign : (numeral places k).negative = false := by simp [numeral, hneg]
    have hdigit : c.isDigit := hcanonical.wholeDigits c (by simp [hwhole])
    simp only [hsign, Style.sign, Bool.false_eq_true, if_false, List.nil_append, List.cons_append,
      List.cons.injEq] at htext
    rw [htext.1] at hdigit
    exact absurd hdigit (by decide)

/-! ### Stripping as an edit of the padded text -/

/-- A text without the zeros at its end, and then without a point there, if it has a
point. -/
def withoutLastZeros (text : List Char) : List Char :=
  if '.' ∈ text then (text.rdropWhile (· == '0')).rdropWhile (· == '.') else text

/-- The text itself, unless it is a zero with a sign. -/
def withoutSignOfZero (text : List Char) : List Char :=
  if text = ['-', '0'] then ['0'] else text

theorem rdropWhile_append_cons {p : Char → Bool} {c : Char} (h : p c = false)
    (front back : List Char) :
    (front ++ c :: back).rdropWhile p = front ++ c :: back.rdropWhile p := by
  induction back using List.reverseRecOn with
  | nil => rw [List.rdropWhile_concat_neg _ _ _ (by simp [h]), List.rdropWhile_nil]
  | append_singleton back x ih =>
    rw [← List.cons_append, ← List.append_assoc, List.rdropWhile_concat, List.rdropWhile_concat, ih]
    split_ifs <;> simp

theorem rdropWhile_point_of_isDigit {text : List Char} (h : ∀ c ∈ text.getLast?, c.isDigit) :
    text.rdropWhile (· == '.') = text := by
  rw [List.rdropWhile_eq_self_iff]
  intro hne hpoint
  have hlast : (text.getLast hne).isDigit := h _ (List.getLast_mem_getLast? hne)
  rw [beq_iff_eq] at hpoint
  rw [hpoint] at hlast
  exact absurd hlast (by decide)

theorem withoutLastZeros_join (negative : Bool) {whole fraction : List Char} (hne : whole ≠ [])
    (hwhole : ∀ c ∈ whole, c.isDigit) (hfraction : ∀ c ∈ fraction, c.isDigit) :
    withoutLastZeros (Style.sign negative ++ join whole fraction) =
      Style.sign negative ++ join whole (dropLastZeros fraction) := by
  have hfront : ∀ c ∈ (Style.sign negative ++ whole).getLast?, c.isDigit := by
    rw [List.getLast?_append_of_ne_nil _ hne]
    exact fun c hc => hwhole c (List.mem_of_mem_getLast? hc)
  unfold withoutLastZeros
  by_cases hempty : fraction = []
  · have hpoint : '.' ∉ Style.sign negative ++ whole := by
      intro hmem
      rcases List.mem_append.1 hmem with hsign | hdigit
      · exact absurd (mem_sign hsign) (by decide)
      · exact absurd (hwhole _ hdigit) (by decide)
    simp [hempty, join, dropLastZeros, hpoint]
  · have hjoin : Style.sign negative ++ join whole fraction =
        (Style.sign negative ++ whole) ++ '.' :: fraction := by
      simp [join, hempty]
    rw [hjoin, if_pos (by simp), rdropWhile_append_cons (by decide), ← dropLastZeros_eq]
    by_cases hzeros : dropLastZeros fraction = []
    · rw [hzeros, List.rdropWhile_concat_pos _ _ _ (by decide), rdropWhile_point_of_isDigit hfront]
      simp [join]
    · rw [rdropWhile_point_of_isDigit]
      · simp [join, hzeros]
      · intro c hc
        rw [List.getLast?_append_of_ne_nil _ (by simp), List.getLast?_cons_of_ne_nil hzeros] at hc
        exact hfraction c (mem_of_mem_dropLastZeros (List.mem_of_mem_getLast? hc))

/-- The stripped text is the padded one without its last zeros, its last point and the
sign of zero. -/
theorem stripped_eq_edited (places : Nat) (x : Binary64) :
    stripped places x = withoutSignOfZero (withoutLastZeros (padded places x)) := by
  cases x with
  | nan => rfl
  | infinite s => cases s <;> rfl
  | finite s m h =>
    set n := count places m with hn
    have hwhole : ∀ c ∈ wholeDigits places n, c.isDigit := fun c hc =>
      Nat.isDigit_of_mem_toDigits (by decide) (by decide) hc
    have hpadded : withoutLastZeros (padded places (.finite s m h)) =
        Style.sign s ++ join (wholeDigits places n) (dropLastZeros (fractionDigits places n)) :=
      withoutLastZeros_join s Nat.toDigits_ne_nil hwhole fun c => isDigit_of_mem_fractionDigits
    by_cases hzero : n = 0
    · have hstripped : stripped places (.finite s m h) = ['0'] := by
        simp [stripped, ← hn, hzero, join_digits_zero, Style.sign]
      rw [hpadded, hstripped, hzero, join_digits_zero]
      cases s <;> rfl
    · have hsign : (s && n != 0) = s := by simp [bne_iff_ne.2 hzero]
      have hstripped : stripped places (.finite s m h) = Style.sign s ++
          join (wholeDigits places n) (dropLastZeros (fractionDigits places n)) := by
        rw [stripped, ← hn, hsign]
      rw [hpadded, ← hstripped, stripped_finite, withoutSignOfZero,
        if_neg (text_numeral_ne places _)]

end Fixed

end Decimal

namespace NumberFormat

open Decimal

theorem exists_format_eq (f : NumberFormat) {x : Binary64} (hx : x.isFinite) :
    ∃ k : ℤ, NearestEven (x.toRat * 10 ^ f.decimals) k ∧
      f.format x = (Fixed.numeral f.decimals k).text := by
  obtain ⟨s, m, hm, rfl⟩ := Binary64.exists_eq_finite hx
  exact ⟨_, Fixed.nearestEven_count f.decimals s m hm, Fixed.stripped_finite f.decimals s m hm⟩

theorem exists_valueOf?_format (f : NumberFormat) {x : Binary64} (hx : x.isFinite) :
    ∃ k : ℤ, NearestEven (x.toRat * 10 ^ f.decimals) k ∧
      valueOf? (f.format x) = some ((k : ℚ) / 10 ^ f.decimals) := by
  obtain ⟨k, hk, htext⟩ := f.exists_format_eq hx
  refine ⟨k, hk, ?_⟩
  rw [htext, valueOf?_text (Fixed.canonical_numeral f.decimals k).toPlain, Fixed.toRat_numeral]

theorem atMost_format (f : NumberFormat) {x y : Binary64} (hx : x.isFinite) (hy : y.isFinite)
    (h : x ≤ y) : AtMost (f.format x) (f.format y) := by
  obtain ⟨k, hk, hx'⟩ := f.exists_valueOf?_format hx
  obtain ⟨l, hl, hy'⟩ := f.exists_valueOf?_format hy
  have hvalues : x.toRat * 10 ^ f.decimals ≤ y.toRat * 10 ^ f.decimals :=
    mul_le_mul_of_nonneg_right ((Binary64.le_iff_toRat_le hx hy).1 h) (by positivity)
  have hcounts : (k : ℚ) ≤ l := by exact_mod_cast hk.mono hl hvalues
  exact ⟨_, _, hx', hy', div_le_div_of_nonneg_right hcounts (by positivity)⟩

theorem format_eq_iff (f : NumberFormat) {x y : Binary64} (hx : x.isFinite) (hy : y.isFinite) :
    f.format x = f.format y ↔ ∃ k : ℤ, NearestEven (x.toRat * 10 ^ f.decimals) k ∧
      NearestEven (y.toRat * 10 ^ f.decimals) k := by
  obtain ⟨k, hk, hx'⟩ := f.exists_format_eq hx
  obtain ⟨l, hl, hy'⟩ := f.exists_format_eq hy
  constructor
  · intro heq
    -- the same text is the same numeral, and that has one value
    have hvalues : valueOf? (Fixed.numeral f.decimals k).text =
        valueOf? (Fixed.numeral f.decimals l).text := by rw [← hx', ← hy', heq]
    rw [valueOf?_text (Fixed.canonical_numeral f.decimals k).toPlain,
      valueOf?_text (Fixed.canonical_numeral f.decimals l).toPlain, Option.some.injEq,
      Fixed.toRat_numeral, Fixed.toRat_numeral, div_left_inj' (by positivity)] at hvalues
    have hcounts : k = l := by exact_mod_cast hvalues
    exact ⟨k, hk, hcounts ▸ hl⟩
  · rintro ⟨n, hn, hn'⟩
    rw [hx', hy', hk.unique hn, hl.unique hn']

/-- A finite number is written as a canonical decimal, the multiple of 10^-decimals
that is nearest to its exact value. Numbers share a text exactly if they share that
multiple, and the texts keep their order. -/
theorem format_canonical (f : NumberFormat) {x y : Binary64} (hx : x.isFinite) (hy : y.isFinite) :
    f.format x = Fixed.withoutSignOfZero (Fixed.withoutLastZeros (Fixed.padded f.decimals x)) ∧
    (∃ n : Numeral, n.Canonical f.decimals ∧ f.format x = n.text) ∧
    f.format x ≠ "-0".toList ∧
    (∃ k : ℤ, NearestEven (x.toRat * 10 ^ f.decimals) k ∧
      valueOf? (f.format x) = some ((k : ℚ) / 10 ^ f.decimals)) ∧
    (f.format x = f.format y ↔ ∃ k : ℤ, NearestEven (x.toRat * 10 ^ f.decimals) k ∧
      NearestEven (y.toRat * 10 ^ f.decimals) k) ∧
    (x ≤ y → AtMost (f.format x) (f.format y)) := by
  obtain ⟨k, -, htext⟩ := f.exists_format_eq hx
  refine ⟨Fixed.stripped_eq_edited f.decimals x, ⟨_, Fixed.canonical_numeral f.decimals k, htext⟩,
    ?_, f.exists_valueOf?_format hx, f.format_eq_iff hx hy, f.atMost_format hx hy⟩
  rw [htext]
  exact Fixed.text_numeral_ne f.decimals k

/-- Without decimals both 1.5 and 2.5 are written as the even number between them. -/
theorem format_canonical_halves :
    (1.5 : Binary64).isFinite ∧ (2.5 : Binary64).isFinite ∧ (1.5 : Binary64) ≤ 2.5 ∧
      (ofDecimals 0).format 1.5 = ['2'] ∧ (ofDecimals 0).format 2.5 = ['2'] ∧
      AtMost ((ofDecimals 0).format 1.5) ((ofDecimals 0).format 2.5) := by
  have hx : (1.5 : Binary64).isFinite := by decide +kernel
  have hy : (2.5 : Binary64).isFinite := by decide +kernel
  have hle : (1.5 : Binary64) ≤ 2.5 := by decide +kernel
  obtain ⟨-, -, -, -, -, horder⟩ := format_canonical (ofDecimals 0) hx hy
  exact ⟨hx, hy, hle, by decide +kernel, by decide +kernel, horder hle⟩

end NumberFormat

end CarrierTape
