import CarrierTape.Json.Schema
import CarrierTape.Proofs.Json.Decoder
import Mathlib.Data.List.Forall2
import Mathlib.Data.List.Nodup
import Mathlib.Data.List.Pairwise

/-!
What a closed schema accepts: an object whose keys are declared fields, each once, with no
required one missing, where each field reads its value (`read_object_iff`). The values are
stored one after the other, so their order is no matter if no two fields write to the same
place (`Independent`).
-/

namespace CarrierTape.Json

variable {α : Type}

theorem exists_of_mem_right {β γ : Type} {R : β → γ → Prop} {bs : List β} {cs : List γ}
    (h : List.Forall₂ R bs cs) {c : γ} (hc : c ∈ cs) : ∃ b ∈ bs, R b c := by
  induction h with
  | nil => cases hc
  | @cons b c' bs cs hbc _ ih =>
    rcases List.mem_cons.1 hc with rfl | hc
    · exact ⟨b, List.mem_cons_self, hbc⟩
    · obtain ⟨b, hb, hR⟩ := ih hc
      exact ⟨b, List.mem_cons_of_mem _ hb, hR⟩

theorem exists_of_mem_left {β γ : Type} {R : β → γ → Prop} {bs : List β} {cs : List γ}
    (h : List.Forall₂ R bs cs) {b : β} (hb : b ∈ bs) : ∃ c ∈ cs, R b c := by
  obtain ⟨c, hc, hR⟩ := exists_of_mem_right h.flip hb
  exact ⟨c, hc, hR⟩

/-! ### Fields -/

namespace Field

/-- Two fields store into different places. -/
def Commutes (f g : Field α) : Prop :=
  ∀ ⦃depth depth' : ℕ⦄ ⦃v v' : Json⦄ ⦃store store' : α → α⦄, f.read depth v = .ok store →
    g.read depth' v' = .ok store' → ∀ a, store (store' a) = store' (store a)

instance : Std.Symm (@Commutes α) :=
  ⟨fun _ _ h _ _ _ _ _ _ hg hf a => (h hf hg a).symm⟩

theorem commutes_of_stores {β γ : Type} {name name' : String} {required required' : Bool}
    {read : Decoder β} {read' : Decoder γ} {store : β → α → α} {store' : γ → α → α}
    (h : ∀ b c a, store b (store' c a) = store' c (store b a)) :
    Commutes ⟨name, required, fun depth v => (read depth v).map store⟩
      ⟨name', required', fun depth v => (read' depth v).map store'⟩ := by
  intro depth depth' v v' g g' hg hg' a
  obtain ⟨b, -, rfl⟩ := map_eq_ok_iff.1 hg
  obtain ⟨c, -, rfl⟩ := map_eq_ok_iff.1 hg'
  exact h b c a

/-- A field that reads as it should, and where storing a value again changes nothing. -/
structure Regular (f : Field α) : Prop where
  read : f.read.Regular
  settles : ∀ {depth : ℕ} {v : Json} {store : α → α}, f.read depth v = .ok store →
    ∀ a, store (store a) = store a

theorem regular_of_read {β : Type} {name : String} {required : Bool} {read : Decoder β}
    {store : β → α → α} (hread : read.Regular) (h : ∀ b a, store b (store b a) = store b a) :
    Regular ⟨name, required, fun depth v => (read depth v).map store⟩ where
  read := hread.map store
  settles hg := by
    obtain ⟨b, -, rfl⟩ := map_eq_ok_iff.1 hg
    exact h b

/-- Where the value that the field reads is stored, `holds` is true of it. -/
def Faithful (f : Field α) (holds : α → String → Json → Prop) : Prop :=
  ∀ ⦃depth : ℕ⦄ ⦃v : Json⦄ ⦃store : α → α⦄ ⦃a : α⦄, f.read depth v = .ok store → store a = a →
    holds a f.name v

theorem faithful_of_read {β : Type} {holds : α → String → Json → Prop} {name : String}
    {required : Bool} {read : Decoder β} {store : β → α → α} (get : α → β)
    (hget : ∀ b a, get (store b a) = b)
    (hread : ∀ {depth v a}, read depth v = .ok (get a) → holds a name v) :
    Faithful ⟨name, required, fun depth v => (read depth v).map store⟩ holds := by
  intro depth v g a hg ha
  obtain ⟨b, hb, rfl⟩ := map_eq_ok_iff.1 hg
  have hb' : get a = b := by rw [← ha, hget]
  exact hread (hb' ▸ hb)

end Field

namespace Schema

variable {s : Schema α}

/-- All fields are regular, and no two of them store into the same place. -/
structure Independent (s : Schema α) : Prop where
  regular : ∀ f ∈ s.fields, f.Regular
  commutes : s.fields.Pairwise Field.Commutes

theorem Independent.commutes_of_ne (hs : s.Independent) {f g : Field α} (hf : f ∈ s.fields)
    (hg : g ∈ s.fields) (h : f ≠ g) : f.Commutes g :=
  hs.commutes.forall hf hg h

theorem field?_eq_some {name : String} {f : Field α} (h : s.field? name = some f) :
    f ∈ s.fields ∧ f.name = name :=
  ⟨List.mem_of_find?_eq_some h, by simpa using List.find?_some h⟩

theorem missing?_eq_none_iff {seen : List String} :
    s.missing? seen = none ↔ ∀ f ∈ s.fields, f.required → f.name ∈ seen := by
  simp [missing?, List.find?_eq_none]

/-! ### Objects -/

def Stores (s : Schema α) (depth : ℕ) (kv : String × Json) (store : α → α) : Prop :=
  ∃ f, s.field? kv.1 = some f ∧ f.read depth kv.2 = .ok store

theorem Stores.needed {β : Type} {name : String} {read : Decoder β} {store : β → α → α}
    {depth : ℕ} {v : Json} {b : β} (hfield : s.field? name = some (.needed name read store))
    (h : read depth v = .ok b) : s.Stores depth (name, v) (store b) :=
  ⟨_, hfield, map_eq_ok_iff.2 ⟨b, h, rfl⟩⟩

theorem Stores.unique {depth : ℕ} {kv : String × Json} {store store' : α → α}
    (h : s.Stores depth kv store) (h' : s.Stores depth kv store') : store = store' := by
  obtain ⟨f, hf, hread⟩ := h
  obtain ⟨g, hg, hread'⟩ := h'
  obtain rfl := Option.some.inj (hf.symm.trans hg)
  exact Except.ok.inj (hread.symm.trans hread')

theorem members_nil_iff {depth : ℕ} {seen : List String} {a b : α} :
    s.members depth seen a (.ofList []) = .ok b ↔ s.missing? seen = none ∧ a = b := by
  simp only [Members.ofList, members, Ending.close]
  cases s.missing? seen <;> simp [bind, Except.bind]

theorem members_cons_of_stores {depth : ℕ} {seen : List String} {key : String} {v : Json}
    {store : α → α} (hseen : key ∉ seen) (h : s.Stores depth (key, v) store) (a : α)
    (fields : List (String × Json)) :
    s.members depth seen a (.ofList ((key, v) :: fields)) =
      s.members depth (key :: seen) (store a) (.ofList fields) := by
  obtain ⟨f, hf, hread⟩ := h
  simp only at hf hread
  simp [Members.ofList, members, Quoted.get, declared, hf, hseen, hread, bind, Except.bind]

theorem members_cons_iff (hclosed : s.closed) {depth : ℕ} {seen : List String} {a b : α}
    {key : String} {v : Json} {fields : List (String × Json)} :
    s.members depth seen a (.ofList ((key, v) :: fields)) = .ok b ↔
      key ∉ seen ∧ ∃ store, s.Stores depth (key, v) store ∧
        s.members depth (key :: seen) (store a) (.ofList fields) = .ok b := by
  constructor
  · intro h
    rw [Members.ofList, members] at h
    cases hf : s.field? key with
    | none => simp [Quoted.get, declared, hf, hclosed, bind, Except.bind] at h
    | some f =>
      by_cases hseen : key ∈ seen
      · simp [Quoted.get, declared, hf, hseen, bind, Except.bind] at h
      · cases hread : f.read depth v with
        | error e => simp [Quoted.get, declared, hf, hseen, hread, bind, Except.bind] at h
        | ok store =>
          refine ⟨hseen, store, ⟨f, hf, hread⟩, ?_⟩
          simpa [Quoted.get, declared, hf, hseen, hread, bind, Except.bind] using h
  · rintro ⟨hseen, store, hstore, hrest⟩
    rwa [members_cons_of_stores hseen hstore]

theorem members_ofList {depth : ℕ} {fields : List (String × Json)} {stores : List (α → α)}
    (hstores : List.Forall₂ (s.Stores depth) fields stores)
    (hnodup : (fields.map Prod.fst).Nodup) {seen : List String}
    (hfresh : ∀ kv ∈ fields, kv.1 ∉ seen)
    (hrequired : ∀ f ∈ s.fields, f.required → f.name ∈ fields.map Prod.fst ∨ f.name ∈ seen)
    (a : α) :
    s.members depth seen a (.ofList fields) = .ok (stores.foldl (fun a store => store a) a) := by
  induction hstores generalizing seen a with
  | nil => exact members_nil_iff.2 ⟨missing?_eq_none_iff.2 (by simpa using hrequired), rfl⟩
  | @cons kv store fields stores hstore _ ih =>
    obtain ⟨key, v⟩ := kv
    rw [List.map_cons, List.nodup_cons] at hnodup
    rw [List.forall_mem_cons] at hfresh
    rw [members_cons_of_stores hfresh.1 hstore, List.foldl_cons]
    refine ih hnodup.2 (fun kv hkv hmem => ?_) (fun f hf hreq => ?_) _
    · rcases List.mem_cons.1 hmem with heq | hmem
      · exact hnodup.1 (heq ▸ List.mem_map_of_mem hkv)
      · exact hfresh.2 kv hkv hmem
    · have hmem := hrequired f hf hreq
      simp only [List.map_cons, List.mem_cons] at hmem ⊢
      tauto

theorem members_ofList_iff (hclosed : s.closed) {depth : ℕ} {seen : List String} {a b : α}
    {fields : List (String × Json)} :
    s.members depth seen a (.ofList fields) = .ok b ↔
      (fields.map Prod.fst).Nodup ∧ (∀ kv ∈ fields, kv.1 ∉ seen) ∧
        (∀ f ∈ s.fields, f.required → f.name ∈ fields.map Prod.fst ∨ f.name ∈ seen) ∧
        ∃ stores, List.Forall₂ (s.Stores depth) fields stores ∧
          stores.foldl (fun a store => store a) a = b := by
  constructor
  · intro h
    induction fields generalizing seen a with
    | nil => simpa [members_nil_iff, missing?_eq_none_iff] using h
    | cons kv fields ih =>
      obtain ⟨key, v⟩ := kv
      obtain ⟨hseen, store, hstore, hrest⟩ := (members_cons_iff hclosed).1 h
      obtain ⟨hnodup, hfresh, hrequired, stores, hstores, rfl⟩ := ih hrest
      refine ⟨?_, ?_, fun f hf hreq => ?_, store :: stores, .cons hstore hstores, rfl⟩
      · refine List.nodup_cons.2 ⟨fun hmem => ?_, hnodup⟩
        obtain ⟨kv, hkv, rfl⟩ := List.mem_map.1 hmem
        exact hfresh kv hkv List.mem_cons_self
      · exact List.forall_mem_cons.2
          ⟨hseen, fun kv hkv hmem => hfresh kv hkv (List.mem_cons_of_mem _ hmem)⟩
      · have hmem := hrequired f hf hreq
        simp only [List.map_cons, List.mem_cons] at hmem ⊢
        tauto
  · rintro ⟨hnodup, hfresh, hrequired, stores, hstores, rfl⟩
    exact members_ofList hstores hnodup hfresh hrequired a

theorem members_declared {depth : ℕ} {fields : List (String × Json)} {stores : List (α → α)}
    (hstores : List.Forall₂ (s.Stores depth) fields stores)
    (hnames : fields.map Prod.fst = s.names) (hnodup : s.names.Nodup) :
    s.members depth [] s.blank (.ofList fields) =
      .ok (stores.foldl (fun a store => store a) s.blank) := by
  refine members_ofList hstores (hnames ▸ hnodup) (by simp) (fun f hf _ => .inl ?_) _
  rw [hnames]
  exact List.mem_map_of_mem hf

theorem members_cons_undeclared (hopen : s.closed = false) {depth : ℕ} {key : String} {v : Json}
    (hkey : s.field? key = none) (hskip : skip v = .ok ()) (seen : List String) (a : α)
    (fields : List (String × Json)) :
    s.members depth seen a (.ofList ((key, v) :: fields)) =
      s.members depth seen a (.ofList fields) := by
  simp [Members.ofList, members, Quoted.get, declared, hkey, hopen, hskip, bind, Except.bind]

/-- What a closed schema accepts as an object, and what it makes of it. -/
theorem read_object_iff (hclosed : s.closed) {depth : ℕ} {fields : List (String × Json)} {a : α} :
    s.read depth (.object (.ofList fields)) = .ok a ↔
      depth ≠ 0 ∧ (fields.map Prod.fst).Nodup ∧
        (∀ f ∈ s.fields, f.required → f.name ∈ fields.map Prod.fst) ∧
        ∃ stores, List.Forall₂ (s.Stores (depth - 1)) fields stores ∧
          stores.foldl (fun a store => store a) s.blank = a := by
  rw [read]
  split_ifs with hdepth
  · simp [hdepth, malformed]
  · simp [members_ofList_iff hclosed, hdepth]

theorem Independent.stores_commute (hs : s.Independent) {depth : ℕ}
    {fields : List (String × Json)} (hnodup : (fields.map Prod.fst).Nodup)
    {stores : List (α → α)} (hstores : List.Forall₂ (s.Stores depth) fields stores) :
    ∀ x ∈ stores, ∀ y ∈ stores, ∀ a, x (y a) = y (x a) := by
  intro x hx y hy
  obtain ⟨kv, hkv, hstorex⟩ := exists_of_mem_right hstores hx
  obtain ⟨kv', hkv', hstorey⟩ := exists_of_mem_right hstores hy
  by_cases hkeys : kv.1 = kv'.1
  · obtain rfl := List.inj_on_of_nodup_map hnodup hkv hkv' hkeys
    rw [hstorex.unique hstorey]
    exact fun _ => rfl
  · obtain ⟨f, hf, hreadf⟩ := hstorex
    obtain ⟨g, hg, hreadg⟩ := hstorey
    have hne : f ≠ g := by
      rintro rfl
      exact hkeys ((field?_eq_some hf).2.symm.trans (field?_eq_some hg).2)
    exact hs.commutes_of_ne (field?_eq_some hf).1 (field?_eq_some hg).1 hne hreadf hreadg

theorem read_object_perm (hs : s.Independent) (hclosed : s.closed) {depth : ℕ}
    {fields fields' : List (String × Json)} (hperm : fields.Perm fields') {a : α}
    (h : s.read depth (.object (.ofList fields)) = .ok a) :
    s.read depth (.object (.ofList fields')) = .ok a := by
  obtain ⟨hdepth, hnodup, hrequired, stores, hstores, rfl⟩ := (read_object_iff hclosed).1 h
  obtain ⟨stores', hstores', hperm'⟩ := List.perm_comp_forall₂ hperm.symm hstores
  have hcommutes := hs.stores_commute hnodup hstores
  refine (read_object_iff hclosed).2 ⟨hdepth, (hperm.map _).nodup_iff.1 hnodup,
    fun f hf hreq => (hperm.map _).mem_iff.1 (hrequired f hf hreq), stores', hstores', ?_⟩
  exact (hperm'.symm.foldl_eq' (fun x hx y hy a => hcommutes y hy x hx a) _).symm

theorem read_object_member (hs : s.Independent) (hclosed : s.closed) {depth : ℕ}
    {path : List Step} {before after : List (String × Json)} {key : String} {v v' : Json} {a : α}
    (hedit : EditedAt Reordered path v v')
    (h : s.read depth (.object (.ofList (before ++ (key, v) :: after))) = .ok a) :
    s.read depth (.object (.ofList (before ++ (key, v') :: after))) = .ok a := by
  obtain ⟨hdepth, hnodup, hrequired, stores, hstores, rfl⟩ := (read_object_iff hclosed).1 h
  have hstable : ∀ store, s.Stores (depth - 1) (key, v) store →
      s.Stores (depth - 1) (key, v') store := by
    rintro store ⟨f, hf, hread⟩
    exact ⟨f, hf, (hs.regular f (field?_eq_some hf).1).read.stable hedit hread⟩
  rw [List.map_append, List.map_cons] at hnodup hrequired
  refine (read_object_iff hclosed).2 ⟨hdepth, ?_, ?_, stores, forall₂_replace hstable hstores, rfl⟩
  · rwa [List.map_append, List.map_cons]
  · rwa [List.map_append, List.map_cons]

theorem checkMembers_of_members (hs : s.Independent) (hclosed : s.closed) {depth : ℕ} :
    ∀ {seen : List String} {a b : α} {members : Members},
      s.members depth seen a members = .ok b → checkMembers depth members = .ok ()
  | _, _, _, .stop ending, h => by
    obtain ⟨⟨⟩, hclose, -⟩ := bind_eq_ok_iff.1 h
    exact hclose
  | _, _, _, .oddKey, h => by cases h
  | _, _, _, .keyOnly key _, h => by
    obtain ⟨name, -, hrest⟩ := bind_eq_ok_iff.1 h
    obtain ⟨_, -, herror⟩ := bind_eq_ok_iff.1 hrest
    cases herror
  | seen, a, b, .member key v rest, h => by
    obtain ⟨name, hkey, hdeclared⟩ := bind_eq_ok_iff.1 h
    obtain ⟨field, hfield, hread⟩ := bind_eq_ok_iff.1 hdeclared
    obtain rfl := get_eq_ok_iff.1 hkey
    unfold declared at hfield
    split at hfield
    case h_1 => simp [hclosed] at hfield
    case h_2 f hf =>
      split_ifs at hfield
      obtain rfl := Except.ok.inj hfield
      obtain ⟨store, hstore, hrest⟩ := bind_eq_ok_iff.1 hread
      exact checkMembers_member_iff.2 ⟨⟨name, rfl⟩,
        (hs.regular f (field?_eq_some hf).1).read.thorough hstore,
        checkMembers_of_members hs hclosed hrest⟩

/-! ### Arrays -/

theorem closeItems_eq_ok {xs : Items} (h : s.closeItems xs = .ok ()) : xs = .stop .closed := by
  unfold closeItems at h
  split at h
  · rfl
  · cases h
  · split_ifs at h
    all_goals cases h

theorem array_eq_ok_iff {depth : ℕ} {xs : Items} {a : α} :
    s.array depth xs = .ok a ↔ s.items depth s.blank 0 s.fields xs = .ok (a, .stop .closed) := by
  simp only [array, bind_eq_ok_iff]
  constructor
  · rintro ⟨⟨b, rest⟩, hitems, ⟨⟩, hclose, hb⟩
    obtain rfl : rest = .stop .closed := closeItems_eq_ok hclose
    obtain rfl : b = a := Except.ok.inj hb
    exact hitems
  · intro h
    exact ⟨_, h, (), rfl, rfl⟩

theorem checkItems_of_items {fs : List (Field α)} (hfs : ∀ f ∈ fs, f.Regular)
    {depth index : ℕ} {a b : α} {xs : Items}
    (h : s.items depth a index fs xs = .ok (b, .stop .closed)) :
    checkItems depth xs = .ok () := by
  induction fs generalizing a index xs with
  | nil =>
    obtain rfl : xs = .stop .closed := (Prod.mk.inj (Except.ok.inj h)).2
    rfl
  | cons f fs ih =>
    cases xs with
    | stop ending =>
      obtain ⟨⟨⟩, hclose, -⟩ := bind_eq_ok_iff.1 h
      exact hclose
    | item v rest =>
      obtain ⟨store, hstore, hrest⟩ := bind_eq_ok_iff.1 h
      exact checkItems_item_iff.2 ⟨(hfs f List.mem_cons_self).read.thorough hstore,
        ih (fun g hg => hfs g (List.mem_cons_of_mem _ hg)) hrest⟩

theorem items_replace {fs : List (Field α)} (hfs : ∀ f ∈ fs, f.Regular)
    {depth index : ℕ} {path : List Step} {a b : α} {before after : List Json} {v v' : Json}
    (hedit : EditedAt Reordered path v v')
    (h : s.items depth a index fs (.ofList (before ++ v :: after)) = .ok (b, .stop .closed)) :
    s.items depth a index fs (.ofList (before ++ v' :: after)) = .ok (b, .stop .closed) := by
  induction before generalizing fs a index with
  | nil =>
    cases fs with
    | nil => exact Items.noConfusion (Prod.mk.inj (Except.ok.inj h)).2
    | cons f fs =>
      obtain ⟨store, hstore, hrest⟩ := bind_eq_ok_iff.1 h
      exact bind_eq_ok_iff.2 ⟨store, (hfs f List.mem_cons_self).read.stable hedit hstore, hrest⟩
  | cons w before ih =>
    cases fs with
    | nil => exact Items.noConfusion (Prod.mk.inj (Except.ok.inj h)).2
    | cons f fs =>
      obtain ⟨store, hstore, hrest⟩ := bind_eq_ok_iff.1 h
      exact bind_eq_ok_iff.2
        ⟨store, hstore, ih (fun g hg => hfs g (List.mem_cons_of_mem _ hg)) hrest⟩

theorem items_fixed {f : Field α} {fs : List (Field α)} (hfs : ∀ g ∈ fs, f.Commutes g)
    {depth depth' index : ℕ} {a b : α} {xs rest : Items} {v : Json} {store : α → α}
    (hstore : f.read depth' v = .ok store) (ha : store a = a)
    (h : s.items depth a index fs xs = .ok (b, rest)) : store b = b := by
  induction fs generalizing a index xs with
  | nil =>
    obtain ⟨rfl, -⟩ := Prod.mk.inj (Except.ok.inj h)
    exact ha
  | cons g fs ih =>
    have hrest : ∀ g ∈ fs, f.Commutes g := fun g hg => hfs g (List.mem_cons_of_mem _ hg)
    cases xs with
    | stop ending =>
      obtain ⟨_, -, hmore⟩ := bind_eq_ok_iff.1 h
      split_ifs at hmore
      exact ih hrest ha hmore
    | item w more =>
      obtain ⟨store', hstore', hmore⟩ := bind_eq_ok_iff.1 h
      refine ih hrest ?_ hmore
      rw [hfs g List.mem_cons_self hstore hstore', ha]

theorem exists_read_of_items {fs : List (Field α)} (hfs : ∀ f ∈ fs, f.Regular)
    (hcommutes : fs.Pairwise Field.Commutes) {depth index : ℕ} {a b : α} {before after : List Json}
    {v : Json}
    (h : s.items depth a index fs (.ofList (before ++ v :: after)) = .ok (b, .stop .closed)) :
    ∃ f store, fs[before.length]? = some f ∧ f.read depth v = .ok store ∧ store b = b := by
  induction before generalizing fs a index with
  | nil =>
    cases fs with
    | nil => exact Items.noConfusion (Prod.mk.inj (Except.ok.inj h)).2
    | cons f fs =>
      obtain ⟨store, hstore, hrest⟩ := bind_eq_ok_iff.1 h
      exact ⟨f, store, rfl, hstore, items_fixed (List.pairwise_cons.1 hcommutes).1 hstore
        ((hfs f List.mem_cons_self).settles hstore a) hrest⟩
  | cons w before ih =>
    cases fs with
    | nil => exact Items.noConfusion (Prod.mk.inj (Except.ok.inj h)).2
    | cons f fs =>
      obtain ⟨store, -, hrest⟩ := bind_eq_ok_iff.1 h
      exact ih (fun g hg => hfs g (List.mem_cons_of_mem _ hg))
        (List.pairwise_cons.1 hcommutes).2 hrest

/-! ### Whole schemas -/

theorem read_eq_ok_iff {depth : ℕ} {v : Json} {a : α} :
    s.read depth v = .ok a ↔ depth ≠ 0 ∧
      ((∃ members, v = .object members ∧ s.members (depth - 1) [] s.blank members = .ok a) ∨
        ∃ xs, v = .array xs ∧ s.array (depth - 1) xs = .ok a) := by
  by_cases hdepth : depth = 0
  · cases v <;> simp [read, hdepth, malformed, Decoder.mismatch_ne_ok]
  · cases v <;> simp [read, hdepth, Decoder.mismatch_ne_ok]

theorem Independent.regular_read (hs : s.Independent) (hclosed : s.closed) :
    s.read.Regular where
  thorough depth v a h := by
    obtain ⟨hdepth, ⟨members, rfl, hmembers⟩ | ⟨xs, rfl, hxs⟩⟩ := read_eq_ok_iff.1 h
    · exact check_object_iff.2 ⟨hdepth, checkMembers_of_members hs hclosed hmembers⟩
    · exact check_array_iff.2 ⟨hdepth, checkItems_of_items hs.regular (array_eq_ok_iff.1 hxs)⟩
  stable depth path v v' a hedit h := by
    cases hedit with
    | here hmembers =>
      obtain ⟨hperm⟩ := hmembers
      exact read_object_perm hs hclosed hperm h
    | member before after key hedit => exact read_object_member hs hclosed hedit h
    | item before after hedit =>
      obtain ⟨hdepth, ⟨members, hv, -⟩ | ⟨xs, hv, hxs⟩⟩ := read_eq_ok_iff.1 h
      · cases hv
      · obtain rfl := Json.array.inj hv
        exact read_eq_ok_iff.2 ⟨hdepth, .inr ⟨_, rfl, array_eq_ok_iff.2
          (items_replace hs.regular hedit (array_eq_ok_iff.1 hxs))⟩⟩

/-- The field that reads what stands at a step into an object or an array. -/
def FieldAt (s : Schema α) : Step → Field α → Prop
  | .member key, f => s.field? key = some f
  | .item index, f => s.fields[index]? = some f

/-- Whatever stands in an object or an array is read by a field, and what the field stores
stands in the result. -/
def Keeps (s : Schema α) (depth : ℕ) (a : α) (v : Json) : Prop :=
  ∀ step w, At w [step] v →
    ∃ f store, s.FieldAt step f ∧ f.read (depth - 1) w = .ok store ∧ store a = a

theorem foldl_fixed {stores : List (α → α)} {store : α → α}
    (hcommutes : ∀ x ∈ stores, ∀ a, store (x a) = x (store a)) {a : α} (ha : store a = a) :
    store (stores.foldl (fun a store => store a) a) = stores.foldl (fun a store => store a) a := by
  induction stores generalizing a with
  | nil => exact ha
  | cons x stores ih =>
    refine ih (fun y hy => hcommutes y (List.mem_cons_of_mem _ hy)) ?_
    rw [hcommutes x List.mem_cons_self, ha]

theorem foldl_settled {stores : List (α → α)} {store : α → α} (hmem : store ∈ stores)
    (hcommutes : ∀ x ∈ stores, ∀ a, store (x a) = x (store a))
    (hsettles : ∀ a, store (store a) = store a) (a : α) :
    store (stores.foldl (fun a store => store a) a) = stores.foldl (fun a store => store a) a := by
  induction stores generalizing a with
  | nil => cases hmem
  | cons x stores ih =>
    have hrest : ∀ y ∈ stores, ∀ a, store (y a) = y (store a) :=
      fun y hy => hcommutes y (List.mem_cons_of_mem _ hy)
    rcases List.mem_cons.1 hmem with rfl | hmem
    · exact foldl_fixed hrest (hsettles a)
    · exact ih hmem hrest _

theorem Independent.keeps (hs : s.Independent) (hclosed : s.closed) {depth : ℕ} {v : Json} {a : α}
    (h : s.read depth v = .ok a) : s.Keeps depth a v := by
  intro step w hat
  cases hat with
  | @member path u before after key hhere =>
    obtain rfl : u = w := by cases hhere; rfl
    obtain ⟨-, hnodup, -, stores, hstores, rfl⟩ := (read_object_iff hclosed).1 h
    obtain ⟨store, hmem, f, hf, hread⟩ := exists_of_mem_left hstores (b := (key, u)) (by simp)
    refine ⟨f, store, hf, hread, foldl_settled hmem ?_ ?_ _⟩
    · exact hs.stores_commute hnodup hstores store hmem
    · exact (hs.regular f (field?_eq_some hf).1).settles hread
  | @item path u before after hhere =>
    obtain rfl : u = w := by cases hhere; rfl
    obtain ⟨-, ⟨members, hv, -⟩ | ⟨xs, hv, hxs⟩⟩ := read_eq_ok_iff.1 h
    · cases hv
    · obtain rfl := Json.array.inj hv
      exact exists_read_of_items hs.regular hs.commutes (array_eq_ok_iff.1 hxs)

/-- What is read is held by the result, if every field stores what it reads. -/
theorem Independent.allHeld (hs : s.Independent) (hclosed : s.closed)
    {holds : α → String → Json → Prop} (hholds : ∀ f ∈ s.fields, f.Faithful holds) {depth : ℕ}
    {v : Json} {a : α} (h : s.read depth v = .ok a) : AllHeld s.names (holds a) v := by
  have hcheck := (hs.regular_read hclosed).thorough h
  have hkeeps := hs.keeps hclosed h
  obtain ⟨-, ⟨members, rfl, -⟩ | ⟨xs, rfl, -⟩⟩ := read_eq_ok_iff.1 h
  · obtain ⟨fields, rfl⟩ := exists_ofList_of_checkMembers (check_object_iff.1 hcheck).2
    refine .object fun ⟨key, w⟩ hmem => ?_
    obtain ⟨before, after, rfl⟩ := List.append_of_mem hmem
    obtain ⟨f, store, hf, hread, hstored⟩ := hkeeps _ w (.member before after key .here)
    obtain ⟨hfield, rfl⟩ := field?_eq_some hf
    exact hholds f hfield hread hstored
  · obtain ⟨vs, rfl⟩ := exists_ofList_of_checkItems (check_array_iff.1 hcheck).2
    refine .array fun index w hw => ?_
    obtain ⟨hindex, rfl⟩ := List.getElem?_eq_some_iff.1 hw
    have hsplit : vs.take index ++ vs[index] :: vs.drop (index + 1) = vs := by
      rw [← List.drop_eq_getElem_cons hindex, List.take_append_drop]
    have hat : At vs[index] [.item index] (.array (.ofList vs)) := by
      have hitem := At.item (vs.take index) (vs.drop (index + 1)) (At.here (w := vs[index]))
      rwa [hsplit, List.length_take_of_le hindex.le] at hitem
    obtain ⟨f, store, hf, hread, hstored⟩ := hkeeps _ _ hat
    have hf : s.fields[index]? = some f := hf
    refine ⟨f.name, ?_, hholds f (List.mem_of_getElem? hf) hread hstored⟩
    rw [names, List.getElem?_map, hf]
    rfl

/-- An object is refused with a member that is not declared or already there, and without
one that must be there. -/
theorem read_ne_ok_of_spoiled (hclosed : s.closed) {required : List String}
    (hrequired : ∀ name ∈ required, ∃ f ∈ s.fields, f.required ∧ f.name = name) {v v' : Json}
    (h : Spoiled s.names required v v') {depth depth' : ℕ} {a b : α}
    (hv : s.read depth v = .ok a) : s.read depth' v' ≠ .ok b := by
  intro hv'
  cases h with
  | @undeclared before after key w hkey =>
    obtain ⟨-, -, -, stores, hstores, -⟩ := (read_object_iff hclosed).1 hv'
    obtain ⟨store, -, f, hf, -⟩ := exists_of_mem_left hstores (b := (key, w)) (by simp)
    exact hkey (List.mem_map.2 ⟨f, field?_eq_some hf⟩)
  | @repeated before after key w hkey =>
    obtain ⟨-, hnodup, -⟩ := (read_object_iff hclosed).1 hv'
    rw [List.map_append, List.map_cons, List.nodup_middle, List.nodup_cons, ← List.map_append]
      at hnodup
    exact hnodup.1 hkey
  | @deleted before after key w hkey =>
    obtain ⟨-, hnodup, -⟩ := (read_object_iff hclosed).1 hv
    obtain ⟨-, -, hthere, -⟩ := (read_object_iff hclosed).1 hv'
    obtain ⟨f, hf, hreq, rfl⟩ := hrequired key hkey
    rw [List.map_append, List.map_cons, List.nodup_middle, List.nodup_cons, ← List.map_append]
      at hnodup
    exact hnodup.1 (hthere f hf hreq)

end Schema

end CarrierTape.Json
