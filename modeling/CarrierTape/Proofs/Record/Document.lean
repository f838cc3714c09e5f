import CarrierTape.Proofs.Json.Printer
import CarrierTape.Proofs.Json.Schema
import CarrierTape.Proofs.Length.Document
import CarrierTape.Proofs.Length.Reader
import CarrierTape.Record.Document
import CarrierTape.Tape.Document

/-!
Lengths, tapes and records are read back from what is printed for them, if their numbers have
few digits (`ofDocument_print`). The printer and the readers do not mirror each other: a length
is printed as an object but read as any value, and a shape is printed with its type as one of
its members and read in two passes over them.
-/

namespace CarrierTape

open Json

/-! ### Scalars -/

namespace Json

theorem number_ofNumber {depth : ℕ} {x : Binary64} (h : x.FewDigits) :
    Decoder.number depth (ofNumber x) = .ok x := by
  obtain ⟨n, hn, -, hread⟩ := number?_ofNumber h
  exact Decoder.number_eq_ok_iff.2 ⟨n, _, hn, hread, rfl⟩

theorem natural_ofNat {depth n bound : ℕ} {expected : String} (hn : n < 2 ^ 64)
    (hbound : n < bound) : Decoder.natural bound expected depth (ofNat n) = .ok n := by
  have hread := number?_ofNat hn
  simp only [ofNat, Decoder.natural, hread]
  exact if_pos hbound

theorem byte_ofNat {depth : ℕ} (b : UInt8) : Decoder.byte depth (ofNat b.toNat) = .ok b := by
  have hlt : b.toNat < 2 ^ 8 := b.toNat_lt
  rw [Decoder.byte, natural_ofNat (by omega) hlt]
  simp [Except.map]

end Json

/-! ### Lengths -/

namespace Length

theorem printable_json (depth : ℕ) {l : Length} (h : l.value.FewDigits) :
    Printable (depth + 1) l.json :=
  printable_ofFields (by simp [printable_ofNumber depth h, printable_ofString])

theorem decoder_json {depth : ℕ} {l : Length} (h : l.value.FewDigits) :
    decoder (depth + 1) l.json = .ok l := by
  refine decoder_eq_ok_iff.2 ⟨(printable_json depth h).check, ?_⟩
  refine ofWhole_object_eq_ok_iff.2 (tagged?_eq_some_iff.2 ⟨ofNumber l.value,
    ofString l.units.shortName, ?_, ?_, ?_, ?_⟩)
  · simp [lookup_ofList]
  · simp [lookup_ofList]
  · obtain ⟨n, hn, -, hread⟩ := number?_ofNumber h
    simp [hn, number?, hread, Number.toBinary64]
  · exact ofShortName?_eq_some_iff.2 rfl

end Length

/-! ### Tapes -/

namespace TapeSpec

/-- All but the count of the pockets. -/
def numbers (s : TapeSpec) : List Binary64 :=
  [s.originX, s.originY, s.tapeWidth, s.tapePitch, s.holeEdgeDistance, s.holeDiameter,
    s.partHoleOffset, s.partWidth, s.partHeight]

theorem printable_json (depth : ℕ) {s : TapeSpec} (h : ∀ x ∈ s.numbers, x.FewDigits)
    (hcount : s.partCount < 2 ^ 64) : Printable (depth + 1) s.json := by
  simp only [numbers, List.forall_mem_cons] at h
  refine printable_ofFields ?_
  simp [h, printable_ofNumber, printable_ofNat depth hcount]

theorem read_json {depth : ℕ} {s : TapeSpec} (h : ∀ x ∈ s.numbers, x.FewDigits)
    (hcount : s.partCount < 2 ^ 64) : schema.read (depth + 1) s.json = .ok s := by
  simp only [numbers, List.forall_mem_cons] at h
  obtain ⟨h₁, h₂, h₃, h₄, h₅, h₆, h₇, h₈, h₉, -⟩ := h
  refine schema.members_declared
    (.cons (.needed rfl (number_ofNumber h₁)) <| .cons (.needed rfl (number_ofNumber h₂)) <|
      .cons (.needed rfl (number_ofNumber h₃)) <| .cons (.needed rfl (number_ofNumber h₄)) <|
      .cons (.needed rfl (number_ofNumber h₅)) <| .cons (.needed rfl (number_ofNumber h₆)) <|
      .cons (.needed rfl (number_ofNumber h₇)) <| .cons (.needed rfl (number_ofNumber h₈)) <|
      .cons (.needed rfl (number_ofNumber h₉)) <|
      .cons (.needed rfl (natural_ofNat hcount hcount)) .nil) rfl (by decide)

end TapeSpec

/-! ### Shapes -/

namespace Point

def numbers (p : Point) : List Binary64 :=
  [p.x, p.y]

theorem printable_json (depth : ℕ) {p : Point} (h : ∀ x ∈ p.numbers, x.FewDigits) :
    Printable (depth + 1) p.json := by
  simp only [numbers, List.forall_mem_cons] at h
  refine printable_ofFields ?_
  simp [h, printable_ofNumber]

theorem read_json {depth : ℕ} {p : Point} (h : ∀ x ∈ p.numbers, x.FewDigits) :
    schema.read (depth + 1) p.json = .ok p := by
  simp only [numbers, List.forall_mem_cons] at h
  obtain ⟨hx, hy, -⟩ := h
  exact schema.members_declared
    (.cons (.needed rfl (number_ofNumber hx)) <| .cons (.needed rfl (number_ofNumber hy)) .nil)
    rfl (by decide)

end Point

namespace Shape

def numbers : Shape → List Binary64
  | .rect r => r.min.numbers ++ r.max.numbers
  | .circle c => c.centre.numbers ++ [c.radius, c.width]

theorem printable_json (depth : ℕ) {shape : Shape} (h : ∀ x ∈ shape.numbers, x.FewDigits) :
    Printable (depth + 2) shape.json := by
  cases shape with
  | rect r =>
    simp only [numbers, List.forall_mem_append] at h
    refine printable_ofFields ?_
    simp [printable_ofString, Point.printable_json depth h.1, Point.printable_json depth h.2]
  | circle c =>
    simp only [numbers, List.forall_mem_append, List.forall_mem_cons] at h
    refine printable_ofFields ?_
    simp [printable_ofString, Point.printable_json depth h.1, printable_ofNumber, h.2]

theorem typeOfMembers_some {depth : ℕ} {read : Decoder Shape} {fields : List (String × Json)}
    (h : ∀ kv ∈ fields, kv.1 ≠ "type" ∧ check depth kv.2 = .ok ()) :
    typeOfMembers depth (some read) (.ofList fields) = .ok read := by
  induction fields with
  | nil => rfl
  | cons kv fields ih =>
    obtain ⟨key, v⟩ := kv
    rw [List.forall_mem_cons] at h
    obtain ⟨⟨hkey, hcheck⟩, hrest⟩ := h
    simp only at hkey hcheck
    simp [Members.ofList, typeOfMembers, Quoted.get, hkey, hcheck, ih hrest, bind, Except.bind]

/-- The first member names the type, and the reader of that type passes over the name. -/
theorem decoder_ofFields {depth : ℕ} {name : String} {read : Decoder Shape}
    {fields : List (String × Json)} (hname : Decoder.named types name = .ok read)
    (h : ∀ kv ∈ fields, kv.1 ≠ "type" ∧ check depth kv.2 = .ok ()) :
    decoder (depth + 1) (ofFields (("type", ofString name) :: fields)) =
      read (depth + 1) (ofFields (("type", ofString name) :: fields)) := by
  have htype : typeOfMembers depth none (.ofList (("type", ofString name) :: fields)) =
      .ok read := by
    rw [Members.ofList, typeOfMembers]
    simp [Quoted.get, ofString, Decoder.variantName, hname, typeOfMembers_some h, bind,
      Except.bind]
  simp [ofFields, decoder, htype, bind, Except.bind]

theorem read_ofFields {α : Type} {s : Schema α} {depth : ℕ} {name : String}
    {fields : List (String × Json)} {stores : List (α → α)} (hopen : s.closed = false)
    (htype : s.field? "type" = none) (hstores : List.Forall₂ (s.Stores depth) fields stores)
    (hnames : fields.map Prod.fst = s.names) (hnodup : s.names.Nodup) :
    s.read (depth + 1) (ofFields (("type", ofString name) :: fields)) =
      .ok (stores.foldl (fun a store => store a) s.blank) :=
  (s.members_cons_undeclared hopen htype rfl [] s.blank fields).trans
    (s.members_declared hstores hnames hnodup)

theorem decoder_json {depth : ℕ} {shape : Shape} (h : ∀ x ∈ shape.numbers, x.FewDigits) :
    decoder (depth + 2) shape.json = .ok shape := by
  cases shape with
  | rect r =>
    simp only [numbers, List.forall_mem_append] at h
    obtain ⟨hmin, hmax⟩ := h
    have hread : Rect.schema.read (depth + 2) (json (.rect r)) = .ok r :=
      read_ofFields (s := Rect.schema) rfl rfl
        (.cons (.needed rfl (Point.read_json hmin)) <|
          .cons (.needed rfl (Point.read_json hmax)) .nil) rfl (by decide)
    refine (decoder_ofFields rfl ?_).trans (map_eq_ok_iff.2 ⟨r, hread, rfl⟩)
    simp [(Point.printable_json depth hmin).check, (Point.printable_json depth hmax).check]
  | circle c =>
    simp only [numbers, List.forall_mem_append, List.forall_mem_cons] at h
    obtain ⟨hcentre, hradius, hwidth, -⟩ := h
    have hread : Circle.schema.read (depth + 2) (json (.circle c)) = .ok c :=
      read_ofFields (s := Circle.schema) rfl rfl
        (.cons (.needed rfl (Point.read_json hcentre)) <|
          .cons (.needed rfl (number_ofNumber hradius)) <|
          .cons (.needed rfl (number_ofNumber hwidth)) .nil) rfl (by decide)
    refine (decoder_ofFields rfl ?_).trans (map_eq_ok_iff.2 ⟨c, hread, rfl⟩)
    simp [(Point.printable_json depth hcentre).check, (printable_ofNumber _ hradius).check,
      (printable_ofNumber _ hwidth).check]

end Shape

/-! ### Records -/

namespace Record

def numbers (r : Record) : List Binary64 :=
  r.shape.numbers

theorem printable_json (depth : ℕ) {r : Record} (h : ∀ x ∈ r.numbers, x.FewDigits) :
    Printable (depth + 3) r.json := by
  have hlayer : r.layer.toNat < 2 ^ 64 := r.layer.toNat_lt.trans (by decide)
  refine printable_ofFields ?_
  simp [printable_ofString, printable_ofNat _ hlayer, Shape.printable_json depth h]

theorem read_json {depth : ℕ} {r : Record} (h : ∀ x ∈ r.numbers, x.FewDigits) :
    schema.read (depth + 3) r.json = .ok r := by
  have hpass : Decoder.variant Pass.table (depth + 2) (ofString r.pass.name) = .ok r.pass := by
    cases r.pass <;> rfl
  exact schema.members_declared
    (.cons (.needed rfl hpass) <| .cons (.needed rfl (byte_ofNat r.layer)) <|
      .cons (.needed rfl (Shape.decoder_json h)) .nil) rfl (by decide)

end Record

/-! ### Whole documents -/

/-- Lengths in any unit, tapes with any count of pockets that fits into 64 bits, and records
are read back from their own text, if their numbers have few digits. -/
theorem ofDocument_print :
    (∀ l : Length, l.value.FewDigits →
      Length.ofDocument (String.ofList (print l.json)) = .ok l) ∧
    (∀ s : TapeSpec, (∀ x ∈ s.numbers, x.FewDigits) → s.partCount < 2 ^ 64 →
      TapeSpec.ofDocument (String.ofList (print s.json)) = .ok s) ∧
    ∀ r : Record, (∀ x ∈ r.numbers, x.FewDigits) →
      Record.ofDocument (String.ofList (print r.json)) = .ok r := by
  refine ⟨fun l h => ?_, fun s h hcount => ?_, fun r h => ?_⟩
  · exact (decodeText_print _ (Length.printable_json 0 h).written).trans (Length.decoder_json h)
  · exact (decodeText_print _ (TapeSpec.printable_json 0 h hcount).written).trans
      (TapeSpec.read_json h hcount)
  · exact (decodeText_print _ (Record.printable_json 0 h).written).trans (Record.read_json h)

/-- An eighth of an inch, a tape with as many pockets as fit into 64 bits, and a circle on the
last layer whose centre has the negative zero among its coordinates. -/
theorem ofDocument_print_extremes :
    Length.ofDocument (String.ofList (print (Length.json ⟨0.125, .inch⟩))) =
      .ok ⟨0.125, .inch⟩ ∧
    TapeSpec.ofDocument (String.ofList (print (TapeSpec.json
      ⟨0.0, 1e-22, 8.0, 4.0, 1.75, 1.5, 3.5, 1.1, 99999.9999999999, 2 ^ 64 - 1⟩))) =
      .ok ⟨0.0, 1e-22, 8.0, 4.0, 1.75, 1.5, 3.5, 1.1, 99999.9999999999, 2 ^ 64 - 1⟩ ∧
    Record.ofDocument (String.ofList (print (Record.json
      ⟨.hole, 255, .circle ⟨⟨.zero true, 0.1⟩, 0.75, 0.0⟩⟩))) =
      .ok ⟨.hole, 255, .circle ⟨⟨.zero true, 0.1⟩, 0.75, 0.0⟩⟩ := by
  refine ⟨ofDocument_print.1 _ ?_, ofDocument_print.2.1 _ ?_ (by decide),
    ofDocument_print.2.2 _ ?_⟩
  · exact Binary64.fewDigits_ofScientific (by decide) (by decide)
  · simp only [TapeSpec.numbers, List.forall_mem_cons, List.not_mem_nil, false_imp_iff,
      implies_true, and_true]
    repeat' apply And.intro
    all_goals exact Binary64.fewDigits_ofScientific (by decide) (by decide)
  · simp only [Record.numbers, Shape.numbers, Point.numbers, List.cons_append, List.nil_append,
      List.forall_mem_cons, List.not_mem_nil, false_imp_iff, implies_true, and_true]
    refine ⟨Binary64.fewDigits_zero true, ?_, ?_, ?_⟩
    all_goals exact Binary64.fewDigits_ofScientific (by decide) (by decide)

end CarrierTape
