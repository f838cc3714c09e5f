import CarrierTape.Proofs.Json.Completeness
import CarrierTape.Proofs.Json.Edits

/-!
Two properties of a reader of values. It is thorough if it accepts no value that has a fault
somewhere. It is stable if it does not depend on the order of members in any object. Readers
that are built from such readers have these properties too.
-/

namespace CarrierTape.Json

theorem forall₂_replace {α β : Type} {R : α → β → Prop} {before after : List α} {a a' : α}
    {bs : List β} (ha : ∀ b, R a b → R a' b) (h : List.Forall₂ R (before ++ a :: after) bs) :
    List.Forall₂ R (before ++ a' :: after) bs := by
  induction before generalizing bs with
  | nil =>
    cases h with
    | cons hb hafter => exact .cons (ha _ hb) hafter
  | cons c before ih =>
    cases h with
    | cons hb hrest => exact .cons hb (ih hrest)

theorem exists_getElem?_of_forall₂ {α β : Type} {R : α → β → Prop} {before after : List α} {a : α}
    {bs : List β} (h : List.Forall₂ R (before ++ a :: after) bs) :
    ∃ b, bs[before.length]? = some b ∧ R a b := by
  induction before generalizing bs with
  | nil =>
    cases h with
    | cons hb hafter => exact ⟨_, rfl, hb⟩
  | cons c before ih =>
    cases h with
    | cons hb hrest => exact ih hrest

namespace Decoder

variable {α β : Type} {read : Decoder α}

def Thorough (read : Decoder α) : Prop :=
  ∀ ⦃depth : ℕ⦄ ⦃v : Json⦄ ⦃a : α⦄, read depth v = .ok a → check depth v = .ok ()

def Stable (read : Decoder α) : Prop :=
  ∀ ⦃depth : ℕ⦄ ⦃path : List Step⦄ ⦃v v' : Json⦄ ⦃a : α⦄, EditedAt Reordered path v v' →
    read depth v = .ok a → read depth v' = .ok a

structure Regular (read : Decoder α) : Prop where
  thorough : Thorough read
  stable : Stable read

theorem mismatch_ne_ok {expected : String} {v : Json} {a : α} :
    (mismatch expected v : Result α) ≠ .ok a := by
  cases v with
  | absent => exact nofun
  | broken => exact nofun
  | null => exact nofun
  | bool => exact nofun
  | number n =>
    rw [mismatch]
    cases n.number? <;> exact nofun
  | text q => cases q <;> exact nofun
  | array => exact nofun
  | object => exact nofun

theorem Stable.of_scalar
    (h : ∀ {depth v a}, read depth v = .ok a →
      (∀ items, v ≠ .array items) ∧ ∀ members, v ≠ .object members) : Stable read := by
  intro depth path v v' a hedit hread
  obtain ⟨harray, hobject⟩ := h hread
  cases hedit with
  | here hmembers => cases hmembers with | object _ => exact absurd rfl (hobject _)
  | member => exact absurd rfl (hobject _)
  | item => exact absurd rfl (harray _)

theorem Thorough.map (h : Thorough read) (f : α → β) :
    Thorough fun depth v => (read depth v).map f := by
  intro depth v b hread
  obtain ⟨a, ha, -⟩ := map_eq_ok_iff.1 hread
  exact h ha

theorem Stable.map (h : Stable read) (f : α → β) :
    Stable fun depth v => (read depth v).map f := by
  intro depth path v v' b hedit hread
  obtain ⟨a, ha, rfl⟩ := map_eq_ok_iff.1 hread
  exact map_eq_ok_iff.2 ⟨a, h hedit ha, rfl⟩

theorem Regular.map (h : Regular read) (f : α → β) :
    Regular fun depth v => (read depth v).map f :=
  ⟨h.thorough.map f, h.stable.map f⟩

/-! ### Scalars -/

theorem text_eq_ok_iff {depth : ℕ} {v : Json} {s : String} :
    text depth v = .ok s ↔ v = .text (.good s) := by
  constructor
  · intro h
    unfold text at h
    split at h
    · rw [get_eq_ok_iff.1 h]
    · exact absurd h mismatch_ne_ok
  · rintro rfl
    rfl

theorem number_eq_ok_iff {depth : ℕ} {v : Json} {x : Binary64} :
    number depth v = .ok x ↔
      ∃ n y, v = .number n ∧ n.number? = some y ∧ y.toBinary64 = x := by
  constructor
  · intro h
    unfold number at h
    split at h
    · split at h
      · cases h
      · exact ⟨_, _, rfl, ‹_›, Except.ok.inj h⟩
    · exact absurd h mismatch_ne_ok
  · rintro ⟨n, y, rfl, hn, rfl⟩
    simp [number, hn]

theorem regular_text : Regular text where
  thorough depth v s h := by
    obtain rfl := text_eq_ok_iff.1 h
    rfl
  stable := Stable.of_scalar fun h => by
    obtain rfl := text_eq_ok_iff.1 h
    simp

theorem regular_number : Regular number where
  thorough depth v x h := by
    obtain ⟨n, y, rfl, hn, -⟩ := number_eq_ok_iff.1 h
    simp [check, hn]
  stable := Stable.of_scalar fun h => by
    obtain ⟨n, y, rfl, -, -⟩ := number_eq_ok_iff.1 h
    simp

/-! ### Values that may be null -/

theorem optional_eq_ok_iff {depth : ℕ} {v : Json} {a : Option α} :
    optional read depth v = .ok a ↔
      v = .null ∧ none = a ∨ v ≠ .null ∧ ∃ b, read depth v = .ok b ∧ some b = a := by
  cases v <;> simp [optional, map_eq_ok_iff]

theorem Regular.optional (h : Regular read) : Regular (optional read) where
  thorough depth v a hread := by
    rcases optional_eq_ok_iff.1 hread with ⟨rfl, -⟩ | ⟨-, b, hb, -⟩
    · rfl
    · exact h.thorough hb
  stable depth path v v' a hedit hread := by
    have hnull : v ≠ .null ∧ v' ≠ .null := by
      cases hedit with
      | here hmembers => cases hmembers with | object _ => exact ⟨nofun, nofun⟩
      | member => exact ⟨nofun, nofun⟩
      | item => exact ⟨nofun, nofun⟩
    rcases optional_eq_ok_iff.1 hread with ⟨rfl, -⟩ | ⟨-, b, hb, rfl⟩
    · exact absurd rfl hnull.1
    · exact optional_eq_ok_iff.2 (.inr ⟨hnull.2, b, h.stable hedit hb, rfl⟩)

/-! ### Sequences -/

theorem checkItems_of_items (h : Thorough read) {depth : ℕ} : ∀ {xs : Items} {as : List α},
    items read depth xs = .ok as → checkItems depth xs = .ok ()
  | .stop ending, as, hread => by
    obtain ⟨⟨⟩, hclose, -⟩ := map_eq_ok_iff.1 (hread : ending.close.map _ = .ok as)
    exact hclose
  | .item v rest, as, hread => by
    obtain ⟨a, ha, hrest⟩ := bind_eq_ok_iff.1 hread
    obtain ⟨bs, hbs, -⟩ := bind_eq_ok_iff.1 hrest
    exact checkItems_item_iff.2 ⟨h ha, checkItems_of_items h hbs⟩

theorem items_ofList_eq_ok_iff {depth : ℕ} {vs : List Json} {as : List α} :
    items read depth (.ofList vs) = .ok as ↔
      List.Forall₂ (fun v a => read depth v = .ok a) vs as := by
  induction vs generalizing as with
  | nil => simp [Items.ofList, items, Ending.close, Except.map, eq_comm]
  | cons v vs ih =>
    simp only [Items.ofList, items, bind_eq_ok_iff, ih, List.forall₂_cons_left_iff]
    constructor
    · rintro ⟨a, ha, bs, hbs, heq⟩
      exact ⟨a, bs, ha, hbs, (Except.ok.inj heq).symm⟩
    · rintro ⟨a, bs, ha, hbs, rfl⟩
      exact ⟨a, ha, bs, hbs, rfl⟩

theorem sequence_eq_ok_iff {depth : ℕ} {v : Json} {as : List α} :
    sequence read depth v = .ok as ↔
      ∃ xs, v = .array xs ∧ depth ≠ 0 ∧ items read (depth - 1) xs = .ok as := by
  constructor
  · intro h
    unfold sequence at h
    split at h
    · split_ifs at h with hdepth
      · cases h
      · exact ⟨_, rfl, hdepth, h⟩
    · exact absurd h mismatch_ne_ok
  · rintro ⟨xs, rfl, hdepth, h⟩
    simp [sequence, hdepth, h]

theorem Regular.sequence (h : Regular read) : Regular (sequence read) where
  thorough depth v as hread := by
    obtain ⟨xs, rfl, hdepth, hxs⟩ := sequence_eq_ok_iff.1 hread
    exact check_array_iff.2 ⟨hdepth, checkItems_of_items h.thorough hxs⟩
  stable depth path v v' as hedit hread := by
    obtain ⟨xs, rfl, hdepth, hxs⟩ := sequence_eq_ok_iff.1 hread
    cases hedit with
    | here hmembers => cases hmembers
    | item before after hedit =>
      refine sequence_eq_ok_iff.2 ⟨_, rfl, hdepth, ?_⟩
      rw [items_ofList_eq_ok_iff] at hxs ⊢
      exact forall₂_replace (fun _ => h.stable hedit) hxs

/-! ### Whole documents -/

theorem Stable.rearranged (h : Stable read) {v v' : Json} (hv : Rearranged v v') {depth : ℕ} {a : α}
    (hread : read depth v = .ok a) : read depth v' = .ok a := by
  induction hv with
  | refl => exact hread
  | tail _ hstep ih =>
    obtain ⟨path, hedit⟩ := hstep
    exact h hedit ih

end Decoder

variable {α : Type} {read : Decoder α}

theorem decodeText_of_spells {text : String} {v : Json} (h : Spells text v) :
    decodeText read text = read maxDepth v := by
  rw [decodeText, ofText_of_spells h, Document.decode]
  cases read maxDepth v <;> rfl

/-- A thorough reader accepts nothing but texts that spell a tree. -/
theorem Decoder.Thorough.exists_spells (hread : read.Thorough) {text : String} {a : α}
    (h : decodeText read text = .ok a) : ∃ v, Spells text v ∧ read maxDepth v = .ok a := by
  obtain ⟨b, hb, hrest⟩ := bind_eq_ok_iff.1 h
  split_ifs at hrest with htrailing
  · cases hrest
  · obtain rfl := Except.ok.inj hrest
    have hdocument : ofText text = ⟨(ofText text).root, false⟩ := by
      rw [← Bool.eq_false_iff.2 htrailing]
    exact ⟨(ofText text).root, spells_of_check hdocument (hread hb), hb⟩

end CarrierTape.Json
