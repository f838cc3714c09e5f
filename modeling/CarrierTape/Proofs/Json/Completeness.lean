import CarrierTape.Proofs.Json.Tokens

/-!
What is written is read: a text that spells a tree is read as that tree
(`ofText_of_spells`). The proof is by induction on the tree. Each step says how much of the
count that the reader runs on is left, three for each character.
-/

namespace CarrierTape.Json

open Decimal

/-! ### White space -/

theorem space_nil : Space [] := by
  simp [Space]

theorem skipSpace_append {space : List Char} (hspace : Space space) (cs : List Char)
    (hcs : ∀ c ∈ cs.head?, isSpace c = false) : skipSpace (space ++ cs) = cs := by
  rw [skipSpace, List.dropWhile_append_of_pos hspace]
  cases cs with
  | nil => rfl
  | cons c cs => rw [List.dropWhile_cons_of_neg (by simp [hcs c rfl])]

theorem isSpace_iff {c : Char} : isSpace c ↔ c = ' ' ∨ c = '\t' ∨ c = '\n' ∨ c = '\r' := by
  simp [isSpace, or_assoc]

theorem ends_space_append {space rest : List Char} (hspace : Space space) (hrest : Ends rest) :
    Ends (space ++ rest) := by
  cases space with
  | nil => exact hrest
  | cons c space =>
    intro d hd
    obtain rfl : c = d := by simpa using hd
    have hc := hspace c List.mem_cons_self
    rw [isSpace_iff] at hc
    rcases hc with rfl | rfl | rfl | rfl <;> decide

/-! ### Where values start -/

theorem exists_head_of_written {v : Json} {body : List Char} (h : Written v body) :
    ∃ c tail, body = c :: tail ∧ isSpace c = false ∧ c ≠ ']' := by
  cases v with
  | absent => cases h
  | broken => cases h
  | null =>
    obtain rfl : body = _ := h
    exact ⟨_, _, rfl, by decide, by decide⟩
  | bool b =>
    cases b <;> obtain rfl : body = _ := h <;> exact ⟨_, _, rfl, by decide, by decide⟩
  | number n =>
    obtain ⟨digits, hdigits, rfl⟩ := h
    obtain ⟨fraction, exponent, -, -, rfl⟩ := hdigits.parts
    cases n.negative with
    | true => exact ⟨'-', _, rfl, by decide, by decide⟩
    | false =>
      obtain ⟨c, tail, hwhole⟩ := List.exists_cons_of_ne_nil hdigits.whole_ne_nil
      have hc : c.isDigit := hdigits.whole c (by simp [hwhole])
      refine ⟨c, tail ++ fraction ++ exponent, by simp [hwhole], ?_, ?_⟩
      · rw [Bool.eq_false_iff]
        intro hspace
        rcases isSpace_iff.1 hspace with rfl | rfl | rfl | rfl <;> exact absurd hc (by decide)
      · rintro rfl
        exact absurd hc (by decide)
  | text q =>
    obtain ⟨behind, rfl, -⟩ := exists_behind_of_quotedWritten h
    exact ⟨_, _, rfl, by decide, by decide⟩
  | array items =>
    obtain ⟨inner, -, rfl⟩ := h
    exact ⟨_, _, rfl, by decide, by decide⟩
  | object members =>
    obtain ⟨inner, -, rfl⟩ := h
    exact ⟨_, _, rfl, by decide, by decide⟩

/-! ### Arrays and objects -/

/-- A value is read to its end, whatever stands around it. Its text is never longer than the
count allows. -/
def ReadsValue (v : Json) : Prop :=
  ∀ {space body rest : List Char} (fuel : ℕ), Space space → Written v body → Ends rest →
    3 * body.length ≤ fuel → readValue fuel (space ++ (body ++ rest)) = (v, rest)

def ReadsMoreItems (items : Items) : Prop :=
  ∀ {space text : List Char} (rest : List Char) (fuel : ℕ), Space space →
    MoreItemsWritten items text → 3 * text.length ≤ fuel →
    readMoreItems fuel (space ++ (text ++ rest)) = (items, rest)

def ReadsMoreMembers (members : Members) : Prop :=
  ∀ {space text : List Char} (rest : List Char) (fuel : ℕ), Space space →
    MoreMembersWritten members text → 3 * text.length ≤ fuel →
    readMoreMembers fuel (space ++ (text ++ rest)) = (members, rest)

theorem ends_moreItems {items : Items} {text : List Char} (h : MoreItemsWritten items text)
    (rest : List Char) : Ends (text ++ rest) := by
  cases items with
  | stop ending =>
    cases ending with
    | closed =>
      obtain rfl : text = _ := h
      simp [Ends]
    | _ => cases h
  | item v items =>
    obtain ⟨body, tail, -, -, rfl⟩ := h
    simp [Ends]

theorem ends_moreMembers {members : Members} {text : List Char}
    (h : MoreMembersWritten members text) (rest : List Char) : Ends (text ++ rest) := by
  cases members with
  | stop ending =>
    cases ending with
    | closed =>
      obtain rfl : text = _ := h
      simp [Ends]
    | _ => cases h
  | keyOnly => cases h
  | oddKey => cases h
  | member key v members =>
    obtain ⟨name, body, tail, -, -, -, rfl⟩ := h
    simp [Ends]

theorem readItem_written {v : Json} {items : Items} (hv : ReadsValue v)
    (hitems : ReadsMoreItems items) {body after tail : List Char}
    (hbody : Written v body) (hafter : Space after) (htail : MoreItemsWritten items tail)
    (rest : List Char) (fuel : ℕ) (hfuel : 3 * (body ++ after ++ tail).length < fuel) :
    readItem fuel (body ++ after ++ tail ++ rest) = (.item v items, rest) := by
  simp only [List.length_append] at hfuel
  obtain ⟨fuel, rfl⟩ := Nat.exists_eq_add_one_of_ne_zero (Nat.ne_of_gt (Nat.zero_lt_of_lt hfuel))
  have hends : Ends (after ++ (tail ++ rest)) :=
    ends_space_append hafter (ends_moreItems htail rest)
  have hvalue := hv fuel space_nil hbody hends (by omega)
  have hmore := hitems rest fuel hafter htail (by omega)
  simp only [List.nil_append] at hvalue
  simp only [List.append_assoc, readItem, hvalue, hmore]

theorem skipSpace_written {v : Json} {space body : List Char} (hspace : Space space)
    (h : Written v body) (rest : List Char) :
    ∃ c tail, skipSpace (space ++ (body ++ rest)) = c :: tail ∧
      c :: tail = body ++ rest ∧ c ≠ ']' := by
  obtain ⟨c, tail, rfl, hc, hne⟩ := exists_head_of_written h
  exact ⟨c, tail ++ rest, skipSpace_append hspace _ (by simpa using hc), rfl, hne⟩

theorem readItems_of_head {fuel : ℕ} {cs tail : List Char} {c : Char}
    (h : skipSpace cs = c :: tail) (hc : c ≠ ']') :
    readItems (fuel + 1) cs = readItem fuel (c :: tail) := by
  simp [readItems, h, hc]

theorem readMoreItems_of_head {fuel : ℕ} {cs behind tail : List Char} {c : Char}
    (h : skipSpace cs = ',' :: behind) (hbehind : skipSpace behind = c :: tail) (hc : c ≠ ']') :
    readMoreItems (fuel + 1) cs = readItem fuel (c :: tail) := by
  simp [readMoreItems, h, hbehind, hc]

theorem readItems_written {items : Items} {text : List Char} {fuel : ℕ}
    (hitems : ∀ v more, items = .item v more → ReadsValue v ∧ ReadsMoreItems more)
    (h : ItemsWritten items text) (rest : List Char) (hfuel : 3 * text.length + 2 ≤ fuel) :
    readItems fuel (text ++ rest) = (items, rest) := by
  obtain ⟨fuel, rfl⟩ := Nat.exists_eq_add_one_of_ne_zero (Nat.ne_of_gt (by omega : 0 < fuel))
  cases items with
  | stop ending =>
    cases ending with
    | closed =>
      obtain ⟨space, hspace, rfl⟩ := h
      have hskip := skipSpace_append hspace (']' :: rest) (by simp [isSpace])
      simp [readItems, hskip]
    | _ => cases h
  | item v more =>
    obtain ⟨_, tail, ⟨before, body, after, hbefore, hbody, hafter, rfl⟩, htail, rfl⟩ := h
    obtain ⟨hv, hmore⟩ := hitems v more rfl
    obtain ⟨c, behind, hhead, heq, hne⟩ :=
      skipSpace_written hbefore hbody (after ++ (tail ++ rest))
    simp only [List.length_append] at hfuel
    have hitem := readItem_written hv hmore hbody hafter htail rest fuel (by
      simp only [List.length_append]
      omega)
    simp only [List.append_assoc] at hitem ⊢
    rw [readItems_of_head hhead hne, heq, hitem]

theorem readMoreItems_written_item {v : Json} {items : Items} (hv : ReadsValue v)
    (hitems : ReadsMoreItems items) : ReadsMoreItems (.item v items) := by
  intro space text rest fuel hspace htext hfuel
  obtain ⟨_, tail, ⟨before, body, after, hbefore, hbody, hafter, rfl⟩, htail, rfl⟩ := htext
  simp only [List.length_append, List.length_cons] at hfuel
  obtain ⟨fuel, rfl⟩ := Nat.exists_eq_add_one_of_ne_zero (Nat.ne_of_gt (by omega : 0 < fuel))
  have hskip := skipSpace_append hspace (',' :: (before ++ body ++ after ++ tail ++ rest))
    (by simp [isSpace])
  obtain ⟨c, behind, hhead, heq, hne⟩ :=
    skipSpace_written hbefore hbody (after ++ (tail ++ rest))
  have hitem := readItem_written hv hitems hbody hafter htail rest fuel (by
    simp only [List.length_append]
    omega)
  simp only [List.cons_append, List.append_assoc] at hitem hskip ⊢
  rw [readMoreItems_of_head hskip hhead hne, heq, hitem]

theorem readMember_written {key : Quoted} {v : Json} {members : Members} (hv : ReadsValue v)
    (hmembers : ReadsMoreMembers members) {behind middle text tail : List Char}
    (hkey : ∀ more, readQuoted (behind ++ more) = (key, more)) (hmiddle : Space middle)
    (htext : Padded (Written v) text) (htail : MoreMembersWritten members tail)
    (rest : List Char) (fuel : ℕ) (hfuel : 3 * (text ++ tail).length < fuel) :
    readMember fuel (behind ++ (middle ++ ':' :: (text ++ (tail ++ rest)))) =
      (.member key v members, rest) := by
  obtain ⟨before, body, after, hbefore, hbody, hafter, rfl⟩ := htext
  simp only [List.length_append] at hfuel
  obtain ⟨fuel, rfl⟩ := Nat.exists_eq_add_one_of_ne_zero (Nat.ne_of_gt (Nat.zero_lt_of_lt hfuel))
  have hskip := skipSpace_append hmiddle
    (':' :: (before ++ body ++ after ++ (tail ++ rest))) (by simp [isSpace])
  have hends : Ends (after ++ (tail ++ rest)) :=
    ends_space_append hafter (ends_moreMembers htail rest)
  have hvalue := hv fuel hbefore hbody hends (by omega)
  have hmore := hmembers rest fuel hafter htail (by omega)
  simp only [List.append_assoc] at hskip
  simp only [List.append_assoc, readMember, hkey, hskip, hvalue, hmore]

theorem readMembers_of_quote {fuel : ℕ} {cs tail : List Char} (h : skipSpace cs = '"' :: tail) :
    readMembers (fuel + 1) cs = readMember fuel tail := by
  simp [readMembers, h]

theorem readMoreMembers_of_quote {fuel : ℕ} {cs behind tail : List Char}
    (h : skipSpace cs = ',' :: behind) (hbehind : skipSpace behind = '"' :: tail) :
    readMoreMembers (fuel + 1) cs = readMember fuel tail := by
  simp [readMoreMembers, h, hbehind]

theorem readMembers_written {members : Members} {text : List Char} {fuel : ℕ}
    (hmembers : ∀ key v more, members = .member key v more → ReadsValue v ∧ ReadsMoreMembers more)
    (h : MembersWritten members text) (rest : List Char) (hfuel : 3 * text.length + 2 ≤ fuel) :
    readMembers fuel (text ++ rest) = (members, rest) := by
  obtain ⟨fuel, rfl⟩ := Nat.exists_eq_add_one_of_ne_zero (Nat.ne_of_gt (by omega : 0 < fuel))
  cases members with
  | stop ending =>
    cases ending with
    | closed =>
      obtain ⟨space, hspace, rfl⟩ := h
      have hskip := skipSpace_append hspace ('}' :: rest) (by simp [isSpace])
      simp [readMembers, hskip]
    | _ => cases h
  | keyOnly => cases h
  | oddKey => cases h
  | member key v more =>
    obtain ⟨_, text, tail, ⟨before, name, middle, hbefore, hname, hmiddle, rfl⟩, htext, htail,
      rfl⟩ := h
    obtain ⟨hv, hmore⟩ := hmembers key v more rfl
    obtain ⟨behind, rfl, hkey⟩ := exists_behind_of_quotedWritten hname
    have hskip := skipSpace_append hbefore
      ('"' :: (behind ++ (middle ++ ':' :: (text ++ (tail ++ rest))))) (by simp [isSpace])
    simp only [List.length_append, List.length_cons] at hfuel
    have hmember := readMember_written hv hmore hkey hmiddle htext htail rest fuel (by
      simp only [List.length_append]
      omega)
    simp only [List.cons_append, List.append_assoc] at hskip hmember ⊢
    rw [readMembers_of_quote hskip, hmember]

theorem readMoreMembers_written_member {key : Quoted} {v : Json} {members : Members}
    (hv : ReadsValue v) (hmembers : ReadsMoreMembers members) :
    ReadsMoreMembers (.member key v members) := by
  intro space text rest fuel hspace h hfuel
  obtain ⟨_, text, tail, ⟨before, name, middle, hbefore, hname, hmiddle, rfl⟩, htext, htail,
    rfl⟩ := h
  obtain ⟨behind, rfl, hkey⟩ := exists_behind_of_quotedWritten hname
  simp only [List.length_append, List.length_cons] at hfuel
  obtain ⟨fuel, rfl⟩ := Nat.exists_eq_add_one_of_ne_zero (Nat.ne_of_gt (by omega : 0 < fuel))
  have hquote := skipSpace_append hbefore
    ('"' :: (behind ++ (middle ++ ':' :: (text ++ (tail ++ rest))))) (by simp [isSpace])
  have hskip := skipSpace_append hspace (',' :: (before ++
    '"' :: (behind ++ (middle ++ ':' :: (text ++ (tail ++ rest)))))) (by simp [isSpace])
  have hmember := readMember_written hv hmembers hkey hmiddle htext htail rest fuel (by
    simp only [List.length_append]
    omega)
  simp only [List.cons_append, List.append_assoc] at hskip hquote hmember ⊢
  rw [readMoreMembers_of_quote hskip hquote, hmember]

theorem readMoreItems_written_stop (ending : Ending) : ReadsMoreItems (.stop ending) := by
  intro space text rest fuel hspace h hfuel
  cases ending with
  | closed =>
    obtain rfl : text = _ := h
    rw [List.length_singleton] at hfuel
    obtain ⟨fuel, rfl⟩ := Nat.exists_eq_add_one_of_ne_zero (Nat.ne_of_gt (by omega : 0 < fuel))
    have hskip := skipSpace_append hspace (']' :: rest) (by simp [isSpace])
    simp [readMoreItems, hskip]
  | _ => cases h

theorem readMoreMembers_written_stop (ending : Ending) : ReadsMoreMembers (.stop ending) := by
  intro space text rest fuel hspace h hfuel
  cases ending with
  | closed =>
    obtain rfl : text = _ := h
    rw [List.length_singleton] at hfuel
    obtain ⟨fuel, rfl⟩ := Nat.exists_eq_add_one_of_ne_zero (Nat.ne_of_gt (by omega : 0 < fuel))
    have hskip := skipSpace_append hspace ('}' :: rest) (by simp [isSpace])
    simp [readMoreMembers, hskip]
  | _ => cases h

/-- It is enough to read a value at its first character, with a step left for that. -/
theorem readsValue_of_head {v : Json}
    (h : ∀ {c : Char} {tail rest : List Char} {fuel : ℕ} {cs : List Char}, Written v (c :: tail) →
      Ends rest → 3 * tail.length + 2 ≤ fuel → skipSpace cs = c :: (tail ++ rest) →
      readValue (fuel + 1) cs = (v, rest)) : ReadsValue v := by
  intro space body rest fuel hspace hbody hrest hfuel
  obtain ⟨c, tail, rfl, hc, -⟩ := exists_head_of_written hbody
  simp only [List.length_cons] at hfuel
  obtain ⟨fuel, rfl⟩ := Nat.exists_eq_add_one_of_ne_zero (Nat.ne_of_gt (by omega : 0 < fuel))
  exact h hbody hrest (by omega) (skipSpace_append hspace _ (by simpa using hc))

theorem readsValue_number (n : Numeral) : ReadsValue (.number n) := by
  refine readsValue_of_head fun {c tail rest fuel cs} hbody hrest _ hskip => ?_
  obtain ⟨digits, hdigits, htext⟩ := hbody
  have hread := readNumber_append hdigits hrest
  cases hnegative : n.negative with
  | true =>
    simp only [hnegative, if_true, List.singleton_append, List.cons.injEq] at htext
    obtain ⟨rfl, rfl⟩ := htext
    rw [hnegative] at hread
    simp [readValue, hskip, hread]
  | false =>
    simp only [hnegative, Bool.false_eq_true, if_false, List.nil_append] at htext
    subst htext
    have hc : c.isDigit := by
      obtain ⟨fraction, exponent, -, -, htext⟩ := hdigits.parts
      obtain ⟨d, whole, hwhole⟩ := List.exists_cons_of_ne_nil hdigits.whole_ne_nil
      rw [hwhole, List.cons_append, List.cons_append, List.cons.injEq] at htext
      exact hdigits.whole c (by simp [hwhole, htext.1])
    have hne (d : Char) (hd : d.isDigit = false) : c ≠ d := by
      rintro rfl
      rw [hc] at hd
      cases hd
    rw [hnegative] at hread
    simp [readValue, hskip, hc, ← hread, hne '"' rfl, hne '[' rfl, hne '{' rfl, hne 'n' rfl,
      hne 't' rfl, hne 'f' rfl, hne '-' rfl]

theorem readsValue_array {items : Items}
    (hitems : ∀ v more, items = .item v more → ReadsValue v ∧ ReadsMoreItems more) :
    ReadsValue (.array items) := by
  refine readsValue_of_head fun {c tail rest fuel cs} hbody hrest hfuel hskip => ?_
  obtain ⟨text, htext, heq⟩ := hbody
  obtain ⟨rfl, rfl⟩ := List.cons.inj heq
  have hread := readItems_written hitems htext rest hfuel
  simp [readValue, hskip, hread]

theorem readsValue_object {members : Members}
    (hmembers : ∀ key v more, members = .member key v more →
      ReadsValue v ∧ ReadsMoreMembers more) :
    ReadsValue (.object members) := by
  refine readsValue_of_head fun {c tail rest fuel cs} hbody hrest hfuel hskip => ?_
  obtain ⟨text, htext, heq⟩ := hbody
  obtain ⟨rfl, rfl⟩ := List.cons.inj heq
  have hread := readMembers_written hmembers htext rest hfuel
  simp [readValue, hskip, hread]

theorem readsValue_text (q : Quoted) : ReadsValue (.text q) := by
  refine readsValue_of_head fun {c tail rest fuel cs} hbody _ _ hskip => ?_
  obtain ⟨behind, heq, hread⟩ := exists_behind_of_quotedWritten hbody
  obtain ⟨rfl, rfl⟩ := List.cons.inj heq
  simp [readValue, hskip, hread]

theorem readsValue_null : ReadsValue .null := by
  refine readsValue_of_head fun {c tail rest fuel cs} hbody _ _ hskip => ?_
  obtain ⟨rfl, rfl⟩ := List.cons.inj hbody
  rw [readValue, hskip]
  exact readWord_append .null _ rest

theorem readsValue_bool (b : Bool) : ReadsValue (.bool b) := by
  refine readsValue_of_head fun {c tail rest fuel cs} hbody _ _ hskip => ?_
  cases b <;> obtain ⟨rfl, rfl⟩ := List.cons.inj hbody <;> rw [readValue, hskip]
  · exact readWord_append (.bool false) _ rest
  · exact readWord_append (.bool true) _ rest

mutual

theorem readsValue : ∀ v : Json, ReadsValue v
  | .absent | .broken .. => fun _ _ hbody => hbody.elim
  | .null => readsValue_null
  | .bool b => readsValue_bool b
  | .number n => readsValue_number n
  | .text q => readsValue_text q
  | .array (.stop _) => readsValue_array (by simp)
  | .array (.item v more) => readsValue_array fun _ _ heq => by
    obtain ⟨rfl, rfl⟩ := Items.item.inj heq
    exact ⟨readsValue v, readsMoreItems more⟩
  | .object (.stop _) | .object (.keyOnly ..) | .object .oddKey => readsValue_object (by simp)
  | .object (.member key v more) => readsValue_object fun _ _ _ heq => by
    obtain ⟨-, rfl, rfl⟩ := Members.member.inj heq
    exact ⟨readsValue v, readsMoreMembers more⟩

theorem readsMoreItems : ∀ items : Items, ReadsMoreItems items
  | .stop ending => readMoreItems_written_stop ending
  | .item v more => readMoreItems_written_item (readsValue v) (readsMoreItems more)

theorem readsMoreMembers : ∀ members : Members, ReadsMoreMembers members
  | .stop ending => readMoreMembers_written_stop ending
  | .keyOnly .. | .oddKey => fun _ _ _ htext => htext.elim
  | .member _ v more => readMoreMembers_written_member (readsValue v) (readsMoreMembers more)

end

theorem ofText_of_spells {text : String} {v : Json} (h : Spells text v) :
    ofText text = ⟨v, false⟩ := by
  obtain ⟨before, body, after, hbefore, hbody, hafter, htext⟩ := h
  have hends : Ends after := by simpa using ends_space_append hafter ends_nil
  have hread := readsValue v (3 * text.toList.length + 3) hbefore hbody hends (by
    simp only [htext, List.length_append]
    omega)
  have hrest : skipSpace after = [] := by simpa using skipSpace_append hafter [] (by simp)
  rw [← List.append_assoc, ← htext] at hread
  simp [ofText, hread, hrest]

end CarrierTape.Json
