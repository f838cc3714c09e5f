import CarrierTape.Json.Printer
import CarrierTape.Proofs.Json.Soundness
import Mathlib.Logic.Relation
import Mathlib.Data.List.Perm.Basic

/-!
Changes of a tree: an edit takes place somewhere in it, and all else stays. The members of
an object can be put into another order, a member can be added, a member can be deleted.
-/

namespace CarrierTape.Json

def Items.ofList : List Json → Items
  | [] => .stop .closed
  | v :: rest => .item v (ofList rest)

/-! ### Edits in their places -/

inductive Step where
  | member (key : String)
  | item (index : ℕ)

/-- What stands in a tree at the end of a path. -/
inductive At (w : Json) : List Step → Json → Prop
  | here : At w [] w
  | member {path : List Step} {v : Json} (before after : List (String × Json)) (key : String)
    (h : At w path v) : At w (.member key :: path) (.object (.ofList (before ++ (key, v) :: after)))
  | item {path : List Step} {v : Json} (before after : List Json) (h : At w path v) :
    At w (.item before.length :: path) (.array (.ofList (before ++ v :: after)))

theorem at_cons_iff {w v : Json} {step : Step} {path : List Step} :
    At w (step :: path) v ↔ ∃ u, At u [step] v ∧ At w path u := by
  constructor
  · intro h
    cases h with
    | member before after key h => exact ⟨_, .member before after key .here, h⟩
    | item before after h => exact ⟨_, .item before after .here, h⟩
  · rintro ⟨u, hu, hw⟩
    cases hu with
    | member before after key hhere =>
      cases hhere
      exact .member before after key hw
    | item before after hhere =>
      cases hhere
      exact .item before after hw

/-- The trees differ by an edit of what stands at the end of the path. -/
inductive EditedAt (edit : Json → Json → Prop) : List Step → Json → Json → Prop
  | here {v v' : Json} (h : edit v v') : EditedAt edit [] v v'
  | member {path : List Step} {v v' : Json} (before after : List (String × Json)) (key : String)
    (h : EditedAt edit path v v') :
    EditedAt edit (.member key :: path) (.object (.ofList (before ++ (key, v) :: after)))
      (.object (.ofList (before ++ (key, v') :: after)))
  | item {path : List Step} {v v' : Json} (before after : List Json)
    (h : EditedAt edit path v v') :
    EditedAt edit (.item before.length :: path) (.array (.ofList (before ++ v :: after)))
      (.array (.ofList (before ++ v' :: after)))

theorem EditedAt.exists_at {edit : Json → Json → Prop} {path : List Step} {v v' : Json}
    (h : EditedAt edit path v v') : ∃ w w', edit w w' ∧ At w path v ∧ At w' path v' := by
  induction h with
  | here h => exact ⟨_, _, h, .here, .here⟩
  | member before after key _ ih =>
    obtain ⟨w, w', hedit, hw, hw'⟩ := ih
    exact ⟨w, w', hedit, .member before after key hw, .member before after key hw'⟩
  | item before after _ ih =>
    obtain ⟨w, w', hedit, hw, hw'⟩ := ih
    exact ⟨w, w', hedit, .item before after hw, .item before after hw'⟩

/-- The members of an object in another order. -/
inductive Reordered : Json → Json → Prop
  | object {fields fields' : List (String × Json)} (h : fields.Perm fields') :
    Reordered (.object (.ofList fields)) (.object (.ofList fields'))

/-- Any objects of a tree have their members in another order. -/
def Rearranged : Json → Json → Prop :=
  Relation.ReflTransGen fun v v' => ∃ path, EditedAt Reordered path v v'

/-- An object with a member too many or too few, where only the names in `declared` may be
used, each of them once, and those in `required` must be. -/
inductive Spoiled (declared required : List String) : Json → Json → Prop
  | undeclared {before after : List (String × Json)} {key : String} {v : Json}
    (h : key ∉ declared) : Spoiled declared required (.object (.ofList (before ++ after)))
      (.object (.ofList (before ++ (key, v) :: after)))
  | repeated {before after : List (String × Json)} {key : String} {v : Json}
    (h : key ∈ (before ++ after).map Prod.fst) :
    Spoiled declared required (.object (.ofList (before ++ after)))
      (.object (.ofList (before ++ (key, v) :: after)))
  | deleted {before after : List (String × Json)} {key : String} {v : Json}
    (h : key ∈ required) : Spoiled declared required
      (.object (.ofList (before ++ (key, v) :: after))) (.object (.ofList (before ++ after)))

/-- An object or an array where nothing is passed over: what stands there is held under its
key, or under the name that belongs to its place. -/
inductive AllHeld (names : List String) (holds : String → Json → Prop) : Json → Prop
  | object {fields : List (String × Json)} (h : ∀ kv ∈ fields, holds kv.1 kv.2) :
    AllHeld names holds (.object (.ofList fields))
  | array {vs : List Json}
    (h : ∀ (index : ℕ) (v : Json), vs[index]? = some v →
      ∃ name, names[index]? = some name ∧ holds name v) :
    AllHeld names holds (.array (.ofList vs))

/-! ### Faultless trees as lists -/

theorem exists_ofList_of_checkItems {depth : ℕ} : ∀ {items : Items},
    checkItems depth items = .ok () → ∃ vs, items = .ofList vs
  | .stop .closed, _ => ⟨[], rfl⟩
  | .item v rest, h => by
    obtain ⟨vs, rfl⟩ := exists_ofList_of_checkItems (checkItems_item_iff.1 h).2
    exact ⟨v :: vs, rfl⟩

theorem exists_ofList_of_checkMembers {depth : ℕ} : ∀ {members : Members},
    checkMembers depth members = .ok () → ∃ fields, members = .ofList fields
  | .stop .closed, _ => ⟨[], rfl⟩
  | .member key v rest, h => by
    obtain ⟨⟨name, rfl⟩, -, hrest⟩ := checkMembers_member_iff.1 h
    obtain ⟨fields, rfl⟩ := exists_ofList_of_checkMembers hrest
    exact ⟨(name, v) :: fields, rfl⟩

theorem checkItems_ofList_iff {depth : ℕ} {vs : List Json} :
    checkItems depth (.ofList vs) = .ok () ↔ ∀ v ∈ vs, check depth v = .ok () := by
  induction vs with
  | nil => simp [Items.ofList, checkItems, Ending.close]
  | cons v vs ih => simp [Items.ofList, checkItems_item_iff, ih]

theorem checkMembers_ofList_iff {depth : ℕ} {fields : List (String × Json)} :
    checkMembers depth (.ofList fields) = .ok () ↔
      ∀ kv ∈ fields, check depth kv.2 = .ok () := by
  induction fields with
  | nil => simp [Members.ofList, checkMembers, Ending.close]
  | cons kv fields ih => simp [Members.ofList, checkMembers_member_iff, ih]

theorem EditedAt.check_eq_ok {path : List Step} {v v' : Json} (h : EditedAt Reordered path v v')
    {depth : ℕ} (hv : check depth v = .ok ()) : check depth v' = .ok () := by
  induction h generalizing depth with
  | here h =>
    obtain ⟨hperm⟩ := h
    rw [check_object_iff, checkMembers_ofList_iff] at hv ⊢
    exact ⟨hv.1, fun kv hkv => hv.2 kv (hperm.mem_iff.2 hkv)⟩
  | member before after key _ ih =>
    rw [check_object_iff, checkMembers_ofList_iff] at hv ⊢
    simp only [List.forall_mem_append, List.forall_mem_cons] at hv ⊢
    exact ⟨hv.1, hv.2.1, ih hv.2.2.1, hv.2.2.2⟩
  | item before after _ ih =>
    rw [check_array_iff, checkItems_ofList_iff] at hv ⊢
    simp only [List.forall_mem_append, List.forall_mem_cons] at hv ⊢
    exact ⟨hv.1, hv.2.1, ih hv.2.2.1, hv.2.2.2⟩

end CarrierTape.Json
