import CarrierTape.Length.Document
import CarrierTape.Proofs.Json.Decoder

/-!
The reader of lengths in documents is thorough, since it reads the whole value first, and
stable, since it looks for two members that it wants to see once each.
-/

namespace CarrierTape.Length

open Json

theorem decoder_eq_ok_iff {depth : ℕ} {v : Json} {l : Length} :
    decoder depth v = .ok l ↔ check depth v = .ok () ∧ ofWhole v = .ok l := by
  simp [decoder, bind_eq_ok_iff, Unique.exists_iff]

/-! ### Members by their key -/

theorem lookup_ofList (name : String) (fields : List (String × Json)) :
    (Members.ofList fields).lookup name =
      (fields.filter fun kv => kv.1 = name).map Prod.snd := by
  induction fields with
  | nil => rfl
  | cons kv fields ih =>
    obtain ⟨key, v⟩ := kv
    by_cases hkey : key = name <;> simp [Members.ofList, Members.lookup, hkey, ih]

/-- What is found under a key that is used once is found again, if an edit does not matter to
what is looked at there. -/
theorem lookup_edited {β : Type} {get? : Json → Option β}
    (hget : ∀ {path : List Step} {v v' : Json} {b : β}, EditedAt Reordered path v v' →
      get? v = some b → get? v' = some b)
    {path : List Step} {members members' : Members}
    (hedit : EditedAt Reordered path (.object members) (.object members')) {name : String}
    {v : Json} {b : β} (hv : members.lookup name = [v]) (hb : get? v = some b) :
    ∃ w, members'.lookup name = [w] ∧ get? w = some b := by
  cases hedit with
  | here hmembers =>
    obtain ⟨hperm⟩ := hmembers
    rw [lookup_ofList] at hv
    have hsame := (hperm.filter fun kv => kv.1 = name).map Prod.snd
    rw [hv] at hsame
    exact ⟨v, by rw [lookup_ofList, List.perm_singleton.1 hsame.symm], hb⟩
  | @member path w w' before after key hedit =>
    simp only [lookup_ofList, List.filter_append, List.map_append, List.filter_cons] at hv ⊢
    by_cases hkey : key = name
    · simp only [hkey, decide_true, if_true, List.map_cons] at hv ⊢
      rcases List.append_eq_singleton_iff.1 hv with ⟨hbefore, hafter⟩ | ⟨-, hnil⟩
      · obtain ⟨rfl, hnone⟩ := List.cons.inj hafter
        exact ⟨w', by rw [hbefore, hnone, List.nil_append], hget hedit hb⟩
      · cases hnil
    · simp only [hkey, decide_false, Bool.false_eq_true, if_false] at hv ⊢
      exact ⟨v, hv, hb⟩

/-! ### The forms of a length -/

theorem exists_number_of_number? {v : Json} {x : Binary64} (h : number? v = some x) :
    ∃ n, v = .number n := by
  cases v <;> first | exact ⟨_, rfl⟩ | cases h

theorem number?_edited {path : List Step} {v v' : Json} {x : Binary64}
    (hedit : EditedAt Reordered path v v') (h : number? v = some x) : number? v' = some x := by
  obtain ⟨n, rfl⟩ := exists_number_of_number? h
  cases hedit with
  | here hmembers => cases hmembers

theorem unit?_object_eq_some_iff {fields : List (String × Json)} {units : LengthUnit} :
    unit? (.object (.ofList fields)) = some units ↔
      ∃ name, fields = [(name, .null)] ∧ LengthUnit.ofShortName? name = some units := by
  match fields with
  | [] => simp [Members.ofList, unit?]
  | [(name, v)] => cases v <;> simp [Members.ofList, unit?]
  | (name, v) :: (name', v') :: rest => cases v <;> simp [Members.ofList, unit?]

theorem unit?_edited {path : List Step} {v v' : Json} {units : LengthUnit}
    (hedit : EditedAt Reordered path v v') (h : unit? v = some units) :
    unit? v' = some units := by
  cases hedit with
  | here hmembers =>
    obtain ⟨hperm⟩ := hmembers
    obtain ⟨name, rfl, hname⟩ := unit?_object_eq_some_iff.1 h
    exact unit?_object_eq_some_iff.2 ⟨name, List.perm_singleton.1 hperm.symm, hname⟩
  | member before after key hedit =>
    obtain ⟨name, hsingle, -⟩ := unit?_object_eq_some_iff.1 h
    rcases List.append_eq_singleton_iff.1 hsingle with ⟨-, hafter⟩ | ⟨-, hnil⟩
    · obtain ⟨-, rfl⟩ := Prod.mk.inj (List.cons.inj hafter).1
      cases hedit with
      | here hmembers => cases hmembers
    · cases hnil
  | item => cases h

theorem tagged?_eq_some_iff {members : Members} {l : Length} :
    tagged? members = some l ↔ ∃ v u, members.lookup "value" = [v] ∧
      members.lookup "units" = [u] ∧ number? v = some l.value ∧ unit? u = some l.units := by
  constructor
  · intro h
    unfold tagged? at h
    split at h
    case h_1 v u hvalue hunits =>
      simp only [Option.bind_eq_bind, Option.bind_eq_some_iff, Option.pure_def,
        Option.some.injEq] at h
      obtain ⟨x, hx, units, hu, rfl⟩ := h
      exact ⟨v, u, hvalue, hunits, hx, hu⟩
    case h_2 => cases h
  · rintro ⟨v, u, hvalue, hunits, hx, hu⟩
    simp [tagged?, hvalue, hunits, hx, hu]

theorem tagged?_edited {path : List Step} {members members' : Members} {l : Length}
    (hedit : EditedAt Reordered path (.object members) (.object members'))
    (h : tagged? members = some l) : tagged? members' = some l := by
  obtain ⟨v, u, hvalue, hunits, hx, hu⟩ := tagged?_eq_some_iff.1 h
  obtain ⟨v', hvalue', hx'⟩ := lookup_edited number?_edited hedit hvalue hx
  obtain ⟨u', hunits', hu'⟩ := lookup_edited unit?_edited hedit hunits hu
  exact tagged?_eq_some_iff.2 ⟨v', u', hvalue', hunits', hx', hu'⟩

theorem ofWhole_object_eq_ok_iff {members : Members} {l : Length} :
    ofWhole (.object members) = .ok l ↔ tagged? members = some l := by
  cases h : tagged? members <;> simp [ofWhole, h, noForm]

theorem regular_decoder : Decoder.Regular decoder := by
  refine ⟨fun _ _ _ h => (decoder_eq_ok_iff.1 h).1, ?_⟩
  intro depth path v v' l hedit h
  obtain ⟨hcheck, hwhole⟩ := decoder_eq_ok_iff.1 h
  refine decoder_eq_ok_iff.2 ⟨hedit.check_eq_ok hcheck, ?_⟩
  have hobject {members members' : Members}
      (hedit : EditedAt Reordered path (.object members) (.object members'))
      (hwhole : ofWhole (.object members) = .ok l) : ofWhole (.object members') = .ok l :=
    ofWhole_object_eq_ok_iff.2 (tagged?_edited hedit (ofWhole_object_eq_ok_iff.1 hwhole))
  cases hedit with
  | here hmembers =>
    obtain ⟨hperm⟩ := hmembers
    exact hobject (.here ⟨hperm⟩) hwhole
  | member before after key hedit => exact hobject (.member before after key hedit) hwhole
  | item => cases hwhole

end CarrierTape.Length
