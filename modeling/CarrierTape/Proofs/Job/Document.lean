import CarrierTape.Job.Document
import CarrierTape.Proofs.Json.Printer
import CarrierTape.Proofs.Json.Schema
import CarrierTape.Proofs.Length.Document

/-!
The texts that are read as jobs. White space and the order of members are no matter, in no
object of a text. Names that are not declared, names that are used twice and names that are
missing are refused, and what stands under a name is the value of its field in the job, so that
nothing in a job is passed over (`Job.ofDocument_rearranged`). The fields are written down here
by their names, and not taken from the lists that the readers go through.
-/

namespace CarrierTape

open Json

/-- The text that a value is, or none. -/
inductive TextOrNull : Json → Option String → Prop
  | null : TextOrNull .null none
  | text (s : String) : TextOrNull (.text (.good s)) (some s)

/-- The length that a value stands for, or none. -/
inductive LengthOrNull : Json → Option Length → Prop
  | null : LengthOrNull .null none
  | length {v : Json} {l : Length} (h : Length.ofWhole v = .ok l) : LengthOrNull v (some l)

theorem textOrNull_of_read {depth : ℕ} {v : Json} {s : Option String}
    (h : Decoder.optional Decoder.text depth v = .ok s) : TextOrNull v s := by
  rcases Decoder.optional_eq_ok_iff.1 h with ⟨rfl, rfl⟩ | ⟨-, b, hb, rfl⟩
  · exact .null
  · obtain rfl := Decoder.text_eq_ok_iff.1 hb
    exact .text b

theorem lengthOrNull_of_read {depth : ℕ} {v : Json} {l : Option Length}
    (h : Decoder.optional Length.decoder depth v = .ok l) : LengthOrNull v l := by
  rcases Decoder.optional_eq_ok_iff.1 h with ⟨rfl, rfl⟩ | ⟨-, b, hb, rfl⟩
  · exact .null
  · exact .length (Length.decoder_eq_ok_iff.1 hb).2

namespace TapeEntry

def fieldNames : List String :=
  ["name", "origin_x", "origin_y", "tape_width", "tape_pitch", "hole_edge_distance",
    "hole_diameter", "part_hole_offset", "part", "part_width", "part_height", "part_count"]

/-- In the field with this name the entry has what the value says. -/
inductive Holds (e : TapeEntry) : String → Json → Prop
  | name {v : Json} (h : TextOrNull v e.name) : Holds e "name" v
  | originX {v : Json} (h : LengthOrNull v e.originX) : Holds e "origin_x" v
  | originY {v : Json} (h : LengthOrNull v e.originY) : Holds e "origin_y" v
  | tapeWidth {v : Json} (h : LengthOrNull v e.tapeWidth) : Holds e "tape_width" v
  | tapePitch {v : Json} (h : Length.ofWhole v = .ok e.tapePitch) : Holds e "tape_pitch" v
  | holeEdgeDistance {v : Json} (h : LengthOrNull v e.holeEdgeDistance) :
    Holds e "hole_edge_distance" v
  | holeDiameter {v : Json} (h : LengthOrNull v e.holeDiameter) : Holds e "hole_diameter" v
  | partHoleOffset {v : Json} (h : LengthOrNull v e.partHoleOffset) : Holds e "part_hole_offset" v
  | part {v : Json} (h : TextOrNull v e.part) : Holds e "part" v
  | partWidth {v : Json} (h : LengthOrNull v e.partWidth) : Holds e "part_width" v
  | partHeight {v : Json} (h : LengthOrNull v e.partHeight) : Holds e "part_height" v
  | partCount {n : Decimal.Numeral} {x : Number} (hnumber : n.number? = some x)
    (h : x.toBinary64 = e.partCount) : Holds e "part_count" (.number n)

theorem names_schema : schema.names = fieldNames := rfl

theorem faithful_text {name : String} {store : Option String → TapeEntry → TapeEntry}
    (get : TapeEntry → Option String) (hget : ∀ s e, get (store s e) = s)
    (hholds : ∀ {e v}, TextOrNull v (get e) → Holds e name v) :
    Field.Faithful (.spare name text? store) Holds :=
  Field.faithful_of_read get hget fun h => hholds (textOrNull_of_read h)

theorem faithful_length {name : String} {store : Option Length → TapeEntry → TapeEntry}
    (get : TapeEntry → Option Length) (hget : ∀ l e, get (store l e) = l)
    (hholds : ∀ {e v}, LengthOrNull v (get e) → Holds e name v) :
    Field.Faithful (.spare name length? store) Holds :=
  Field.faithful_of_read get hget fun h => hholds (lengthOrNull_of_read h)

theorem faithful_tapePitch :
    Field.Faithful (.needed "tape_pitch" Length.decoder fun l e => { e with tapePitch := l })
      Holds :=
  Field.faithful_of_read tapePitch (fun _ _ => rfl) fun h =>
    .tapePitch (Length.decoder_eq_ok_iff.1 h).2

theorem faithful_partCount :
    Field.Faithful (.needed "part_count" Decoder.number fun x e => { e with partCount := x })
      Holds := by
  refine Field.faithful_of_read partCount (fun _ _ => rfl) fun h => ?_
  obtain ⟨n, x, rfl, hnumber, hx⟩ := Decoder.number_eq_ok_iff.1 h
  exact .partCount hnumber hx

theorem faithful_schema : ∀ f ∈ schema.fields, f.Faithful Holds := by
  simp only [schema, List.forall_mem_cons, List.not_mem_nil, false_imp_iff, implies_true, and_true]
  exact ⟨faithful_text name (fun _ _ => rfl) .name,
    faithful_length originX (fun _ _ => rfl) .originX,
    faithful_length originY (fun _ _ => rfl) .originY,
    faithful_length tapeWidth (fun _ _ => rfl) .tapeWidth,
    faithful_tapePitch,
    faithful_length holeEdgeDistance (fun _ _ => rfl) .holeEdgeDistance,
    faithful_length holeDiameter (fun _ _ => rfl) .holeDiameter,
    faithful_length partHoleOffset (fun _ _ => rfl) .partHoleOffset,
    faithful_text part (fun _ _ => rfl) .part,
    faithful_length partWidth (fun _ _ => rfl) .partWidth,
    faithful_length partHeight (fun _ _ => rfl) .partHeight,
    faithful_partCount⟩

theorem independent_schema : schema.Independent where
  regular := by
    have htext : Decoder.Regular text? := Decoder.regular_text.optional
    have hlength : Decoder.Regular length? := Length.regular_decoder.optional
    have hneeded : Decoder.Regular Length.decoder := Length.regular_decoder
    have hnumber : Decoder.Regular Decoder.number := Decoder.regular_number
    simp only [schema, List.forall_mem_cons, List.not_mem_nil, false_imp_iff, implies_true,
      and_true]
    repeat' apply And.intro
    all_goals exact Field.regular_of_read (by assumption) fun _ _ => rfl
  commutes := by
    simp only [schema, List.pairwise_cons, List.forall_mem_cons, List.not_mem_nil, false_imp_iff,
      implies_true, and_true, List.Pairwise.nil]
    repeat' apply And.intro
    all_goals exact Field.commutes_of_stores fun _ _ _ => rfl

theorem allHeld_of_read {depth : ℕ} {v : Json} {e : TapeEntry}
    (h : schema.read depth v = .ok e) : AllHeld fieldNames e.Holds v :=
  independent_schema.allHeld rfl faithful_schema h

end TapeEntry

namespace Job

def fieldNames : List String :=
  ["$schema", "gap", "tapes"]

/-- In the field with this name the job has what the value says. -/
inductive Holds (job : Job) : String → Json → Prop
  | schemaReference {v : Json} (h : TextOrNull v job.schemaReference) : Holds job "$schema" v
  | gap {v : Json} (h : Length.ofWhole v = .ok job.gap) : Holds job "gap" v
  | tapes {vs : List Json}
    (h : List.Forall₂ (fun v (e : TapeEntry) => AllHeld TapeEntry.fieldNames e.Holds v) vs
      job.tapes) : Holds job "tapes" (.array (.ofList vs))

theorem names_schema : schema.names = fieldNames := rfl

theorem Holds.tapes_of_read {job : Job} {depth : ℕ} {v : Json}
    (h : Decoder.sequence TapeEntry.schema.read depth v = .ok job.tapes) : job.Holds "tapes" v := by
  have hregular := TapeEntry.independent_schema.regular_read rfl
  obtain ⟨xs, rfl, -, hxs⟩ := Decoder.sequence_eq_ok_iff.1 h
  obtain ⟨vs, rfl⟩ := exists_ofList_of_checkItems
    (Decoder.checkItems_of_items hregular.thorough hxs)
  exact .tapes ((Decoder.items_ofList_eq_ok_iff.1 hxs).imp fun _ _ => TapeEntry.allHeld_of_read)

theorem faithful_schema : ∀ f ∈ schema.fields, f.Faithful Holds := by
  simp only [schema, List.forall_mem_cons, List.not_mem_nil, false_imp_iff, implies_true, and_true]
  refine ⟨?schemaReference, ?gap, ?tapes⟩
  case schemaReference =>
    exact Field.faithful_of_read schemaReference (fun _ _ => rfl) fun h =>
      .schemaReference (textOrNull_of_read h)
  case gap =>
    exact Field.faithful_of_read gap (fun _ _ => rfl) fun h => .gap (Length.decoder_eq_ok_iff.1 h).2
  case tapes => exact Field.faithful_of_read tapes (fun _ _ => rfl) Holds.tapes_of_read

theorem independent_schema : schema.Independent where
  regular := by
    have htext : (Decoder.optional Decoder.text).Regular := Decoder.regular_text.optional
    have hlength : Decoder.Regular Length.decoder := Length.regular_decoder
    have htapes : (Decoder.sequence TapeEntry.schema.read).Regular :=
      (TapeEntry.independent_schema.regular_read rfl).sequence
    simp only [schema, List.forall_mem_cons, List.not_mem_nil, false_imp_iff, implies_true,
      and_true]
    exact ⟨Field.regular_of_read htext fun _ _ => rfl,
      Field.regular_of_read hlength fun _ _ => rfl, Field.regular_of_read htapes fun _ _ => rfl⟩
  commutes := by
    simp only [schema, List.pairwise_cons, List.forall_mem_cons, List.not_mem_nil, false_imp_iff,
      implies_true, and_true, List.Pairwise.nil]
    repeat' apply And.intro
    all_goals exact Field.commutes_of_stores fun _ _ _ => rfl

/-- Where the entry of a tape stands: among the items of `tapes`, or of the third value if
the job is an array. -/
def entryPaths (index : ℕ) : List (List Step) :=
  [[.member "tapes", .item index], [.item 2, .item index]]

theorem fieldAt_tapes {step : Step} (hstep : step = .member "tapes" ∨ step = .item 2)
    {f : Json.Field Job} (h : schema.FieldAt step f) :
    f = .needed "tapes" (Decoder.sequence TapeEntry.schema.read)
      fun v j => { j with tapes := v } := by
  rcases hstep with rfl | rfl
  · exact (Option.some.inj h).symm
  · exact (Option.some.inj h).symm

theorem exists_entry_of_at {depth index : ℕ} {path : List Step} {v w : Json} {job : Job}
    (h : schema.read depth v = .ok job) (hpath : path ∈ entryPaths index) (hat : At w path v) :
    ∃ e, job.tapes[index]? = some e ∧ TapeEntry.schema.read (depth - 2) w = .ok e := by
  obtain ⟨step, hstep, rfl⟩ : ∃ step, (step = .member "tapes" ∨ step = .item 2) ∧
      path = [step, .item index] := by
    simpa [entryPaths] using hpath
  obtain ⟨u, hu, hw⟩ := at_cons_iff.1 hat
  obtain ⟨f, store, hf, hread, hkept⟩ := independent_schema.keeps rfl h step u hu
  obtain rfl := fieldAt_tapes hstep hf
  obtain ⟨es, hes, rfl⟩ := map_eq_ok_iff.1 hread
  obtain rfl : es = job.tapes := congrArg Job.tapes hkept
  obtain ⟨xs, rfl, -, hxs⟩ := Decoder.sequence_eq_ok_iff.1 hes
  cases hw with
  | item before after hhere =>
    cases hhere
    exact exists_getElem?_of_forall₂ (Decoder.items_ofList_eq_ok_iff.1 hxs)

/-- A job whose text has a member too many or too few: the job itself, or one of its entries. -/
def Spoiled (v v' : Json) : Prop :=
  Json.Spoiled fieldNames ["tapes"] v v' ∨
    ∃ index, ∃ path ∈ entryPaths index,
      EditedAt (Json.Spoiled TapeEntry.fieldNames ["tape_pitch", "part_count"]) path v v'

theorem read_ne_ok_of_spoiled {depth : ℕ} {v v' : Json} {job job' : Job}
    (h : schema.read depth v = .ok job) (hspoiled : Spoiled v v') :
    schema.read depth v' ≠ .ok job' := by
  intro h'
  rcases hspoiled with hspoiled | ⟨index, path, hpath, hedit⟩
  · rw [← names_schema] at hspoiled
    refine Schema.read_ne_ok_of_spoiled rfl ?_ hspoiled h h'
    simp [schema, Field.needed]
  · obtain ⟨w, w', hspoiled, hw, hw'⟩ := hedit.exists_at
    obtain ⟨e, -, he⟩ := exists_entry_of_at h hpath hw
    obtain ⟨e', -, he'⟩ := exists_entry_of_at h' hpath hw'
    rw [← TapeEntry.names_schema] at hspoiled
    refine Schema.read_ne_ok_of_spoiled rfl ?_ hspoiled he he'
    simp [TapeEntry.schema, Field.needed]

def oneTape (entry : List (String × Json)) : List (String × Json) :=
  [("gap", ofNat 3), ("tapes", .array (.ofList [ofFields entry]))]

theorem written_oneTape (entry : List (String × Json))
    (h : ∀ kv ∈ entry, Written kv.2 (print kv.2)) :
    ∀ kv ∈ oneTape entry, Written kv.2 (print kv.2) := by
  have hgap : Written (ofNat 3) (print (ofNat 3)) := (printable_ofNat 0 (by decide)).written
  have htapes : Written (.array (.ofList [ofFields entry]))
      (print (.array (.ofList [ofFields entry]))) :=
    written_array (by simpa using written_ofFields h)
  simp [oneTape, hgap, htapes]

theorem editedAt_oneTape {edit : Json → Json → Prop} {entry entry' : List (String × Json)}
    (h : edit (ofFields entry) (ofFields entry')) :
    EditedAt edit [.member "tapes", .item 0] (ofFields (oneTape entry))
      (ofFields (oneTape entry')) :=
  .member [("gap", ofNat 3)] [] "tapes" (.item [] [] (.here h))

theorem rearranged_oneTape {entry entry' : List (String × Json)} (h : entry.Perm entry') :
    Rearranged (ofFields (oneTape entry)) (ofFields (oneTape entry').reverse) :=
  .tail (.single ⟨_, editedAt_oneTape ⟨h⟩⟩) ⟨[], .here ⟨(List.reverse_perm _).symm⟩⟩

/-- What is read as a job is the text of a tree. In other white space, and with the members of
any of its objects in another order, it is read as the same job. With a member that is not
declared or there already, and without one that must be there, it is not read as a job. So
nothing in it is passed over: whatever stands in the job or in one of its entries, the job has
in the field with the same name. -/
theorem ofDocument_rearranged {text : String} {job : Job} (h : ofDocument text = .ok job) :
    (∃ v, Spells text v) ∧
      (∀ v v' text', Spells text v → Rearranged v v' → Spells text' v' →
        ofDocument text' = .ok job) ∧
      (∀ v v' text', Spells text v → Spoiled v v' → Spells text' v' →
        ∃ e, ofDocument text' = .error e) ∧
      ∀ v, Spells text v → AllHeld fieldNames job.Holds v := by
  have hregular := independent_schema.regular_read rfl
  have hread {v : Json} (hv : Spells text v) : schema.read maxDepth v = .ok job :=
    (decodeText_of_spells hv).symm.trans h
  refine ⟨?_, fun v v' text' hv hedit hv' => ?_, fun v v' text' hv hspoiled hv' => ?_,
    fun v hv => independent_schema.allHeld rfl faithful_schema (hread hv)⟩
  · obtain ⟨v, hv, -⟩ := hregular.thorough.exists_spells h
    exact ⟨v, hv⟩
  · exact (decodeText_of_spells hv').trans (hregular.stable.rearranged hedit (hread hv))
  · cases hresult : ofDocument text' with
    | error e => exact ⟨e, rfl⟩
    | ok job' =>
      have hread' := (decodeText_of_spells hv').symm.trans hresult
      exact absurd hread' (read_ne_ok_of_spoiled (hread hv) hspoiled)

/-- A job with one tape. All of it stands in the job; all members of both objects change places,
with white space around the whole; then the tape gets a colour. -/
theorem ofDocument_rearranged_oneTape :
    ∃ job,
      ofDocument (String.ofList (print
        (ofFields (oneTape [("tape_pitch", ofNat 4), ("part_count", ofNat 2)])))) = .ok job ∧
      AllHeld fieldNames job.Holds
        (ofFields (oneTape [("tape_pitch", ofNat 4), ("part_count", ofNat 2)])) ∧
      ofDocument (String.ofList (' ' :: print
        (ofFields (oneTape [("part_count", ofNat 2), ("tape_pitch", ofNat 4)]).reverse) ++
          ['\n'])) = .ok job ∧
      ∃ e, ofDocument (String.ofList (print (ofFields (oneTape
        [("tape_pitch", ofNat 4), ("colour", .null), ("part_count", ofNat 2)])))) = .error e := by
  obtain ⟨job, hjob⟩ : ∃ job, ofDocument (String.ofList (print
      (ofFields (oneTape [("tape_pitch", ofNat 4), ("part_count", ofNat 2)])))) = .ok job :=
    exists_eq_ok_of_isSome (by decide +kernel)
  obtain ⟨-, hsame, hspoiled, hheld⟩ := ofDocument_rearranged hjob
  have hpitch : Written (ofNat 4) (print (ofNat 4)) := (printable_ofNat 0 (by decide)).written
  have hcount : Written (ofNat 2) (print (ofNat 2)) := (printable_ofNat 0 (by decide)).written
  have hnull : Written .null (print .null) := rfl
  have hspells := spells_print (written_ofFields (written_oneTape
    [("tape_pitch", ofNat 4), ("part_count", ofNat 2)] (by simp [hpitch, hcount])))
  refine ⟨job, hjob, hheld _ hspells, ?_, ?_⟩
  · have hwritten := written_oneTape
      [("part_count", ofNat 2), ("tape_pitch", ofNat 4)] (by simp [hpitch, hcount])
    have hreversed := written_ofFields fun kv hkv => hwritten kv (List.mem_reverse.1 hkv)
    exact hsame _ _ _ hspells (rearranged_oneTape (.swap _ _ []))
      ⟨[' '], _, ['\n'], by simp [Space, isSpace], hreversed, by simp [Space, isSpace], by simp⟩
  · have hwritten := written_oneTape
      [("tape_pitch", ofNat 4), ("colour", .null), ("part_count", ofNat 2)]
      (by simp [hpitch, hcount, hnull])
    have hcolour := @Json.Spoiled.undeclared TapeEntry.fieldNames ["tape_pitch", "part_count"]
      [("tape_pitch", ofNat 4)] [("part_count", ofNat 2)] "colour" .null (by decide)
    exact hspoiled _ _ _ hspells (.inr ⟨0, _, List.mem_cons_self, editedAt_oneTape hcolour⟩)
      (spells_print (written_ofFields hwritten))

end Job

end CarrierTape
