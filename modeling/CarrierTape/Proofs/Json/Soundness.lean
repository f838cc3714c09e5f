import CarrierTape.Json.Decoder
import CarrierTape.Proofs.Except
import CarrierTape.Proofs.Json.Tokens

/-!
What is read is written: a text whose tree has no faults spells this tree
(`spells_of_check`). The proof is by induction on the count that the reader runs on, for all
its functions at once (`ReaderSound`).
-/

namespace CarrierTape.Json

/-! ### Whole values -/

theorem get_eq_ok_iff {key : Quoted} {s : String} : key.get = .ok s ↔ key = .good s := by
  cases key <;> simp [Quoted.get]

theorem check_array_iff {depth : ℕ} {items : Items} :
    check depth (.array items) = .ok () ↔ depth ≠ 0 ∧ checkItems (depth - 1) items = .ok () := by
  rw [check]
  split_ifs with h <;> simp [h, malformed]

theorem check_object_iff {depth : ℕ} {members : Members} :
    check depth (.object members) = .ok () ↔
      depth ≠ 0 ∧ checkMembers (depth - 1) members = .ok () := by
  rw [check]
  split_ifs with h <;> simp [h, malformed]

theorem checkItems_item_iff {depth : ℕ} {v : Json} {items : Items} :
    checkItems depth (.item v items) = .ok () ↔
      check depth v = .ok () ∧ checkItems depth items = .ok () := by
  simp [checkItems, bind_eq_ok_iff, Unique.exists_iff]

theorem checkMembers_member_iff {depth : ℕ} {key : Quoted} {v : Json} {members : Members} :
    checkMembers depth (.member key v members) = .ok () ↔
      (∃ s, key = .good s) ∧ check depth v = .ok () ∧ checkMembers depth members = .ok () := by
  simp [checkMembers, bind_eq_ok_iff, get_eq_ok_iff, Unique.exists_iff]

theorem ne_broken_of_check {depth : ℕ} {v : Json} (h : check depth v = .ok ()) :
    ∀ fault skipFault, v ≠ .broken fault skipFault := by
  rintro fault skipFault rfl
  simp [check] at h

/-! ### One step of the reader -/

theorem exists_space (cs : List Char) :
    ∃ space, Space space ∧ cs = space ++ skipSpace cs :=
  ⟨cs.takeWhile isSpace, fun _ hc => List.mem_takeWhile_imp hc,
    (List.takeWhile_append_dropWhile ..).symm⟩

def ValueSound (fuel : ℕ) : Prop :=
  ∀ {cs rest : List Char} {v : Json} {depth : ℕ}, readValue fuel cs = (v, rest) →
    check depth v = .ok () → ∃ space body, Space space ∧ Written v body ∧
      cs = space ++ (body ++ rest)

def ItemsSound (fuel : ℕ) : Prop :=
  ∀ {cs rest : List Char} {items : Items} {depth : ℕ}, readItems fuel cs = (items, rest) →
    checkItems depth items = .ok () → ∃ text, ItemsWritten items text ∧ cs = text ++ rest

def ItemSound (fuel : ℕ) : Prop :=
  ∀ {cs rest : List Char} {items : Items} {depth : ℕ}, readItem fuel cs = (items, rest) →
    checkItems depth items = .ok () → ∃ v more text tail, items = .item v more ∧
      Padded (Written v) text ∧ MoreItemsWritten more tail ∧ cs = text ++ (tail ++ rest)

def MoreItemsSound (fuel : ℕ) : Prop :=
  ∀ {cs rest : List Char} {items : Items} {depth : ℕ}, readMoreItems fuel cs = (items, rest) →
    checkItems depth items = .ok () → ∃ space text, Space space ∧ MoreItemsWritten items text ∧
      cs = space ++ (text ++ rest)

def MembersSound (fuel : ℕ) : Prop :=
  ∀ {cs rest : List Char} {members : Members} {depth : ℕ},
    readMembers fuel cs = (members, rest) → checkMembers depth members = .ok () →
      ∃ text, MembersWritten members text ∧ cs = text ++ rest

def MemberSound (fuel : ℕ) : Prop :=
  ∀ {cs rest : List Char} {members : Members} {depth : ℕ},
    readMember fuel cs = (members, rest) → checkMembers depth members = .ok () →
      ∃ key v more behind middle text tail, members = .member key v more ∧
        QuotedWritten key ('"' :: behind) ∧ Space middle ∧ Padded (Written v) text ∧
        MoreMembersWritten more tail ∧ cs = behind ++ (middle ++ ':' :: (text ++ (tail ++ rest)))

def MoreMembersSound (fuel : ℕ) : Prop :=
  ∀ {cs rest : List Char} {members : Members} {depth : ℕ},
    readMoreMembers fuel cs = (members, rest) → checkMembers depth members = .ok () →
      ∃ space text, Space space ∧ MoreMembersWritten members text ∧ cs = space ++ (text ++ rest)

theorem Padded.space_append {P : List Char → Prop} {space text : List Char} (hspace : Space space)
    (h : Padded P text) : Padded P (space ++ text) := by
  obtain ⟨before, body, after, hbefore, hbody, hafter, rfl⟩ := h
  refine ⟨space ++ before, body, after, ?_, hbody, hafter, by simp⟩
  exact fun c hc => (List.mem_append.1 hc).elim (hspace c) (hbefore c)

theorem ItemsSound.succ {fuel : ℕ} (hitem : ItemSound fuel) : ItemsSound (fuel + 1) := by
  intro cs rest items depth h hcheck
  obtain ⟨space, hspace, hcs⟩ := exists_space cs
  rw [readItems] at h
  split at h
  case h_1 =>
    obtain ⟨rfl, rfl⟩ := Prod.mk.inj h
    cases hcheck
  case h_2 behind heq =>
    obtain ⟨rfl, rfl⟩ := Prod.mk.inj h
    exact ⟨space ++ [']'], ⟨space, hspace, rfl⟩, by rw [hcs, heq]; simp⟩
  case h_3 =>
    obtain ⟨v, more, text, tail, rfl, htext, htail, heq⟩ := hitem h hcheck
    exact ⟨space ++ text ++ tail, ⟨space ++ text, tail, htext.space_append hspace, htail, rfl⟩,
      by rw [hcs, heq]; simp⟩

theorem ItemSound.succ {fuel : ℕ} (hvalue : ValueSound fuel) (hmore : MoreItemsSound fuel) :
    ItemSound (fuel + 1) := by
  intro cs rest items depth h hcheck
  rw [readItem] at h
  cases hv : readValue fuel cs with
  | mk v behind =>
    cases hitems : readMoreItems fuel behind with
    | mk more behind' =>
      simp only [hv, hitems] at h
      obtain ⟨rfl, rfl⟩ := Prod.mk.inj h
      obtain ⟨hcheckv, hcheckmore⟩ := checkItems_item_iff.1 hcheck
      obtain ⟨before, body, hbefore, hbody, rfl⟩ := hvalue hv hcheckv
      obtain ⟨after, tail, hafter, htail, rfl⟩ := hmore hitems hcheckmore
      exact ⟨v, more, before ++ body ++ after, tail, rfl,
        ⟨before, body, after, hbefore, hbody, hafter, rfl⟩, htail, by simp⟩

theorem MoreItemsSound.succ {fuel : ℕ} (hitem : ItemSound fuel) : MoreItemsSound (fuel + 1) := by
  intro cs rest items depth h hcheck
  obtain ⟨space, hspace, hcs⟩ := exists_space cs
  rw [readMoreItems] at h
  split at h
  case h_1 =>
    obtain ⟨rfl, rfl⟩ := Prod.mk.inj h
    cases hcheck
  case h_2 behind heq =>
    obtain ⟨rfl, rfl⟩ := Prod.mk.inj h
    exact ⟨space, [']'], hspace, rfl, by rw [hcs, heq]; rfl⟩
  case h_3 behind heq =>
    obtain ⟨space', hspace', hbehind⟩ := exists_space behind
    split at h
    case h_1 =>
      obtain ⟨rfl, rfl⟩ := Prod.mk.inj h
      cases hcheck
    case h_2 =>
      obtain ⟨rfl, rfl⟩ := Prod.mk.inj h
      cases hcheck
    case h_3 =>
      obtain ⟨v, more, text, tail, rfl, htext, htail, heq'⟩ := hitem h hcheck
      refine ⟨space, ',' :: (space' ++ text) ++ tail, hspace,
        ⟨space' ++ text, tail, htext.space_append hspace', htail, rfl⟩, ?_⟩
      rw [hcs, heq, hbehind, heq']
      simp
  case h_4 =>
    obtain ⟨rfl, rfl⟩ := Prod.mk.inj h
    cases hcheck

theorem MembersSound.succ {fuel : ℕ} (hmember : MemberSound fuel) : MembersSound (fuel + 1) := by
  intro cs rest members depth h hcheck
  obtain ⟨space, hspace, hcs⟩ := exists_space cs
  rw [readMembers] at h
  split at h
  case h_1 =>
    obtain ⟨rfl, rfl⟩ := Prod.mk.inj h
    cases hcheck
  case h_2 behind heq =>
    obtain ⟨rfl, rfl⟩ := Prod.mk.inj h
    exact ⟨space ++ ['}'], ⟨space, hspace, rfl⟩, by rw [hcs, heq]; simp⟩
  case h_3 heq =>
    obtain ⟨key, v, more, behind, middle, text, tail, rfl, hkey, hmiddle, htext, htail, rfl⟩ :=
      hmember h hcheck
    refine ⟨space ++ '"' :: behind ++ middle ++ ':' :: text ++ tail,
      ⟨_, text, tail, ⟨space, _, middle, hspace, hkey, hmiddle, rfl⟩, htext, htail, rfl⟩, ?_⟩
    rw [hcs, heq]
    simp
  case h_4 =>
    obtain ⟨rfl, rfl⟩ := Prod.mk.inj h
    cases hcheck

theorem MemberSound.succ {fuel : ℕ} (hvalue : ValueSound fuel) (hmore : MoreMembersSound fuel) :
    MemberSound (fuel + 1) := by
  intro cs rest members depth h hcheck
  rw [readMember] at h
  cases hkey : readQuoted cs with
  | mk key behind =>
    obtain ⟨middle, hmiddle, hbehind⟩ := exists_space behind
    simp only [hkey] at h
    split at h
    case h_1 =>
      obtain ⟨rfl, rfl⟩ := Prod.mk.inj h
      cases key <;> cases hcheck
    case h_2 text heq =>
      cases hv : readValue fuel text with
      | mk v behind' =>
        cases hmembers : readMoreMembers fuel behind' with
        | mk more behind'' =>
          simp only [hv, hmembers] at h
          obtain ⟨rfl, rfl⟩ := Prod.mk.inj h
          obtain ⟨⟨s, rfl⟩, hcheckv, hcheckmore⟩ := checkMembers_member_iff.1 hcheck
          obtain ⟨name, hname, rfl⟩ := exists_quotedWritten_of_readQuoted hkey
          obtain ⟨before, body, hbefore, hbody, rfl⟩ := hvalue hv hcheckv
          obtain ⟨after, tail, hafter, htail, rfl⟩ := hmore hmembers hcheckmore
          refine ⟨.good s, v, more, name, middle, before ++ body ++ after, tail, rfl, hname,
            hmiddle, ⟨before, body, after, hbefore, hbody, hafter, rfl⟩, htail, ?_⟩
          rw [hbehind, heq]
          simp
    case h_3 =>
      obtain ⟨rfl, rfl⟩ := Prod.mk.inj h
      cases key <;> cases hcheck

theorem MoreMembersSound.succ {fuel : ℕ} (hmember : MemberSound fuel) :
    MoreMembersSound (fuel + 1) := by
  intro cs rest members depth h hcheck
  obtain ⟨space, hspace, hcs⟩ := exists_space cs
  rw [readMoreMembers] at h
  split at h
  case h_1 =>
    obtain ⟨rfl, rfl⟩ := Prod.mk.inj h
    cases hcheck
  case h_2 behind heq =>
    obtain ⟨rfl, rfl⟩ := Prod.mk.inj h
    exact ⟨space, ['}'], hspace, rfl, by rw [hcs, heq]; rfl⟩
  case h_3 behind heq =>
    obtain ⟨space', hspace', hbehind⟩ := exists_space behind
    split at h
    case h_1 =>
      obtain ⟨rfl, rfl⟩ := Prod.mk.inj h
      cases hcheck
    case h_2 heq' =>
      obtain ⟨key, v, more, name, middle, text, tail, rfl, hkey, hmiddle, htext, htail, rfl⟩ :=
        hmember h hcheck
      refine ⟨space, ',' :: (space' ++ '"' :: name ++ middle) ++ ':' :: text ++ tail, hspace,
        ⟨_, text, tail, ⟨space', _, middle, hspace', hkey, hmiddle, rfl⟩, htext, htail, rfl⟩, ?_⟩
      rw [hcs, heq, hbehind, heq']
      simp
    case h_3 =>
      obtain ⟨rfl, rfl⟩ := Prod.mk.inj h
      cases hcheck
  case h_4 =>
    obtain ⟨rfl, rfl⟩ := Prod.mk.inj h
    cases hcheck

theorem ValueSound.succ {fuel : ℕ} (hitems : ItemsSound fuel) (hmembers : MembersSound fuel) :
    ValueSound (fuel + 1) := by
  intro cs rest v depth h hcheck
  obtain ⟨space, hspace, hcs⟩ := exists_space cs
  have hbroken := ne_broken_of_check hcheck
  suffices ∃ body, Written v body ∧ skipSpace cs = body ++ rest by
    obtain ⟨body, hbody, heq⟩ := this
    exact ⟨space, body, hspace, hbody, by rw [← heq, ← hcs]⟩
  rw [readValue] at h
  split at h
  case h_1 =>
    obtain ⟨rfl, rfl⟩ := Prod.mk.inj h
    cases hcheck
  case h_2 behind heq =>
    cases hq : readQuoted behind with
    | mk q behind' =>
      simp only [hq] at h
      obtain ⟨rfl, rfl⟩ := Prod.mk.inj h
      cases q with
      | bad => cases hcheck
      | good s =>
        obtain ⟨text, htext, rfl⟩ := exists_quotedWritten_of_readQuoted hq
        exact ⟨_, htext, heq⟩
  case h_3 behind heq =>
    cases hxs : readItems fuel behind with
    | mk items behind' =>
      simp only [hxs] at h
      obtain ⟨rfl, rfl⟩ := Prod.mk.inj h
      obtain ⟨text, htext, rfl⟩ := hitems hxs (check_array_iff.1 hcheck).2
      exact ⟨_, ⟨text, htext, rfl⟩, heq⟩
  case h_4 behind heq =>
    cases hms : readMembers fuel behind with
    | mk members behind' =>
      simp only [hms] at h
      obtain ⟨rfl, rfl⟩ := Prod.mk.inj h
      obtain ⟨text, htext, rfl⟩ := hmembers hms (check_object_iff.1 hcheck).2
      exact ⟨_, ⟨text, htext, rfl⟩, heq⟩
  case h_5 heq | h_6 heq | h_7 heq =>
    obtain ⟨rfl, rfl⟩ := eq_of_readWord h hbroken
    exact ⟨_, rfl, heq⟩
  case h_8 heq =>
    obtain ⟨n, text, rfl, hnegative, htext, rfl⟩ := exists_magnitudeWritten h hbroken
    exact ⟨'-' :: text, ⟨text, htext, by rw [hnegative]; rfl⟩, heq⟩
  case h_9 heq =>
    split_ifs at h
    · obtain ⟨n, text, rfl, hnegative, htext, htail⟩ := exists_magnitudeWritten h hbroken
      exact ⟨text, ⟨text, htext, by rw [hnegative]; rfl⟩, heq.trans htail⟩
    · exact absurd (Prod.mk.inj h).1.symm (hbroken _ _)

/-! ### The whole reader -/

structure ReaderSound (fuel : ℕ) : Prop where
  value : ValueSound fuel
  items : ItemsSound fuel
  item : ItemSound fuel
  moreItems : MoreItemsSound fuel
  members : MembersSound fuel
  member : MemberSound fuel
  moreMembers : MoreMembersSound fuel

theorem readerSound (fuel : ℕ) : ReaderSound fuel := by
  induction fuel with
  | zero =>
    constructor <;>
    · intro cs rest v depth h hcheck
      obtain ⟨rfl, rfl⟩ := Prod.mk.inj h
      cases hcheck
  | succ fuel ih =>
    exact ⟨ValueSound.succ ih.items ih.members, ItemsSound.succ ih.item,
      ItemSound.succ ih.value ih.moreItems, MoreItemsSound.succ ih.item,
      MembersSound.succ ih.member, MemberSound.succ ih.value ih.moreMembers,
      MoreMembersSound.succ ih.member⟩

/-- A text whose tree has no faults, and nothing behind it, spells this tree. -/
theorem spells_of_check {text : String} {v : Json} {depth : ℕ} (h : ofText text = ⟨v, false⟩)
    (hcheck : check depth v = .ok ()) : Spells text v := by
  cases hread : readValue (3 * text.toList.length + 3) text.toList with
  | mk root rest =>
    simp only [ofText, hread, Document.mk.injEq, Bool.not_eq_false', List.isEmpty_iff] at h
    obtain ⟨rfl, hrest⟩ := h
    obtain ⟨before, body, hbefore, hbody, htext⟩ := (readerSound _).value hread hcheck
    obtain ⟨after, hafter, heq⟩ := exists_space rest
    rw [hrest, List.append_nil] at heq
    exact ⟨before, body, after, hbefore, hbody, hafter, by rw [htext, heq, List.append_assoc]⟩

end CarrierTape.Json
