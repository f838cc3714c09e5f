import CarrierTape.Proofs.Script.Text
import CarrierTape.Script.Writer

/-!
Writing to a sink that fills up. What has reached the sink is always the text of the
operations cut off where the sink was full, and the writer has counted the line
feeds in it. The invariant is `Cut`: it speaks of the whole text of all operations
so far, those that failed included, so that it survives a failure at any position
and everything that is tried afterwards.
-/

namespace CarrierTape

open Statement

/-- A sink with room for `n` characters in all, empty so far. -/
def Sink.limited (n : Nat) (stalls flushFails : Bool) : Sink :=
  ⟨some n, stalls, flushFails, ""⟩

namespace Writer

theorem writeStatement_eq (w : Writer) (s : Statement) :
    w.writeStatement s =
      match w.sink.write (s.line w.format) with
      | (sink, .ok ()) => (⟨sink, w.format, w.statements + 1⟩, .ok ())
      | (sink, .error e) => (⟨sink, w.format, w.statements⟩, .error e) := rfl

/-- The operations of a writer, which may be used in any order. -/
inductive Operation where
  | header
  | tape (records : List Record)

def Operation.statements : Operation → List Statement
  | .header => [.grid]
  | .tape records => Script.plan records

def perform (w : Writer) : Operation → Writer × Except SinkError Unit
  | .header => w.writeHeader
  | .tape records => w.writeTape records

/-- The writer after operations, tried one after the other whether they fail or not. -/
def performAll (w : Writer) (operations : List Operation) : Writer :=
  operations.foldl (fun w op => (w.perform op).1) w

/-- The sink of the writer has received `text` up to its capacity `n`, and the lines
that have reached it whole are counted. -/
structure Cut (n : Nat) (flushFails : Bool) (f : NumberFormat) (text : List Char) (w : Writer) :
    Prop where
  format : w.format = f
  capacity : w.sink.capacity = some n
  flushing : w.sink.flushFails = flushFails
  received : w.sink.received.toList = text.take n
  statements : w.statements = (text.take n).count '\n'

theorem Cut.new (n : Nat) (stalls flushFails : Bool) (f : NumberFormat) :
    Cut n flushFails f [] (.new (.limited n stalls flushFails) f) :=
  ⟨rfl, rfl, rfl, by simp [Writer.new, Sink.limited], by simp [Writer.new]⟩

variable {n : Nat} {flushFails : Bool} {f : NumberFormat} {text : List Char} {w : Writer}

theorem Cut.room (h : Cut n flushFails f text w) : w.sink.room = some (n - text.length) := by
  have hlength : w.sink.received.length = min n text.length := by
    rw [← String.length_toList, h.received, List.length_take]
  simp only [Sink.room, h.capacity, hlength, Option.map_some]
  congr 1
  omega

theorem Cut.accepted (h : Cut n flushFails f text w) (line : List Char) :
    w.sink.accepted line = line.take (n - text.length) := by
  simp [Sink.accepted, h.room]

theorem Cut.fits (h : Cut n flushFails f text w) {line : List Char} (hline : 0 < line.length) :
    w.sink.fits line = true ↔ (text ++ line).length ≤ n := by
  simp only [Sink.fits, h.room, Option.all_some, decide_eq_true_eq, List.length_append]
  omega

/-- Once the sink is full, it does not matter what else there is to write. -/
theorem Cut.append (h : Cut n flushFails f text w) (hfull : n ≤ text.length) (more : List Char) :
    Cut n flushFails f (text ++ more) w := by
  have htake : (text ++ more).take n = text.take n := List.take_append_of_le_length hfull
  exact ⟨h.format, h.capacity, h.flushing, htake ▸ h.received, htake ▸ h.statements⟩

/-- One statement: its line is appended and cut, and it is counted if its line feed
has arrived, which is when it succeeds. -/
theorem Cut.writeStatement (h : Cut n flushFails f text w) (s : Statement) :
    Cut n flushFails f (text ++ s.line f) (w.writeStatement s).1 ∧
      ((w.writeStatement s).2 = .ok () ↔ (text ++ s.line f).length ≤ n) := by
  have hfits := h.fits (length_line_pos f s)
  have hreceived : (w.sink.received ++ String.ofList (w.sink.accepted (s.line f))).toList =
      (text ++ s.line f).take n := by
    rw [String.toList_append, String.toList_ofList, h.received, h.accepted, List.take_append]
  have hcount : ((text ++ s.line f).take n).count '\n' =
      w.statements + ((s.line f).take (n - text.length)).count '\n' := by
    rw [List.take_append, List.count_append, h.statements]
  rw [writeStatement_eq, Sink.write, h.format]
  by_cases hroom : (text ++ s.line f).length ≤ n
  · rw [if_pos (hfits.2 hroom)]
    refine ⟨⟨rfl, h.capacity, h.flushing, hreceived, ?_⟩, iff_of_true rfl hroom⟩
    have htake : (s.line f).take (n - text.length) = s.line f := by
      rw [List.length_append] at hroom
      exact List.take_of_length_le (by omega)
    rw [hcount, htake, count_lineFeed_line]
  · rw [if_neg (mt hfits.1 hroom)]
    refine ⟨⟨rfl, h.capacity, h.flushing, hreceived, ?_⟩, iff_of_false nofun hroom⟩
    have hshort : n - text.length < (s.line f).length := by
      rw [List.length_append] at hroom
      have hpos := length_line_pos f s
      omega
    rw [hcount, count_lineFeed_take_line f s hshort]
    rfl

/-- A list of statements. After the first one that fails, the rest of the text is
beyond the cut already. -/
theorem Cut.writeAll (statements : List Statement) : ∀ {text : List Char} {w : Writer},
    Cut n flushFails f text w →
      Cut n flushFails f (text ++ renderAll f statements) (w.writeAll statements).1 ∧
        ((w.writeAll statements).2 = .ok () ↔
          statements = [] ∨ (text ++ renderAll f statements).length ≤ n) := by
  induction statements with
  | nil =>
    intro text w h
    rw [renderAll, List.flatMap_nil, List.append_nil]
    exact ⟨h, iff_of_true rfl (.inl rfl)⟩
  | cons s rest ih =>
    intro text w h
    obtain ⟨hcut, hok⟩ := h.writeStatement s
    rw [renderAll_cons, ← List.append_assoc]
    unfold Writer.writeAll
    cases hresult : w.writeStatement s with
    | mk after result =>
      rw [hresult] at hcut hok
      cases result with
      | ok _ =>
        obtain ⟨hrest, hrestOk⟩ := ih hcut
        refine ⟨hrest, hrestOk.trans ⟨fun hor => .inr ?_, fun hor => .inr ?_⟩⟩
        · rcases hor with rfl | hlength
          · rw [renderAll, List.flatMap_nil, List.append_nil]
            exact hok.1 rfl
          · exact hlength
        · exact hor.resolve_left nofun
      | error e =>
        have hfull : ¬(text ++ s.line f).length ≤ n := fun hle => nomatch hok.2 hle
        refine ⟨hcut.append (by omega) _, iff_of_false nofun ?_⟩
        rintro (hnil | hlength)
        · exact nomatch hnil
        · rw [List.length_append] at hlength
          omega

theorem writeAll_singleton (w : Writer) (s : Statement) : w.writeAll [s] = w.writeStatement s := by
  unfold writeAll
  rcases w.writeStatement s with ⟨after, result⟩
  cases result <;> rfl

theorem perform_eq_writeAll (w : Writer) (op : Operation) :
    w.perform op = w.writeAll op.statements := by
  cases op with
  | header => exact (writeAll_singleton w .grid).symm
  | tape records => rfl

theorem Cut.performAll (operations : List Operation) : ∀ {text : List Char} {w : Writer},
    Cut n flushFails f text w →
      Cut n flushFails f (text ++ renderAll f (operations.flatMap Operation.statements))
        (w.performAll operations) := by
  induction operations with
  | nil =>
    intro text w h
    rw [List.flatMap_nil, renderAll, List.flatMap_nil, List.append_nil]
    exact h
  | cons op rest ih =>
    intro text w h
    obtain ⟨hcut, -⟩ := h.writeAll op.statements
    rw [List.flatMap_cons, renderAll_append, ← List.append_assoc]
    rw [← perform_eq_writeAll] at hcut
    exact ih hcut

/-- The writer after statements that have all arrived. -/
def having (w : Writer) (statements : List Statement) : Writer where
  sink := { w.sink with
    received := w.sink.received ++ String.ofList (renderAll w.format statements) }
  format := w.format
  statements := w.statements + statements.length

theorem having_nil (w : Writer) : w.having [] = w := by
  simp [having, renderAll]

theorem having_append (w : Writer) (xs ys : List Statement) :
    w.having (xs ++ ys) = (w.having xs).having ys := by
  simp [having, renderAll_append, String.append_assoc, Nat.add_assoc]

theorem writeAll_unlimited (statements : List Statement) : ∀ {w : Writer},
    w.sink.capacity = none → w.writeAll statements = (w.having statements, .ok ()) := by
  induction statements with
  | nil =>
    intro w _
    rw [having_nil, Writer.writeAll]
  | cons s rest ih =>
    intro w h
    have hwrite : w.writeStatement s = (w.having [s], .ok ()) := by
      simp [writeStatement_eq, Sink.write, Sink.fits, Sink.accepted, Sink.room, h, having,
        renderAll]
    have hsplit : w.having (s :: rest) = (w.having [s]).having rest := having_append w [s] rest
    rw [hsplit]
    unfold Writer.writeAll
    rw [hwrite]
    exact ih h

theorem performAll_unlimited (operations : List Operation) : ∀ {w : Writer},
    w.sink.capacity = none →
      w.performAll operations = w.having (operations.flatMap Operation.statements) := by
  induction operations with
  | nil =>
    intro w _
    rw [List.flatMap_nil, having_nil, performAll, List.foldl_nil]
  | cons op rest ih =>
    intro w h
    have hfirst : w.perform op = (w.having op.statements, .ok ()) := by
      rw [perform_eq_writeAll, writeAll_unlimited op.statements h]
    rw [List.flatMap_cons, having_append, performAll, List.foldl_cons, hfirst]
    exact ih h

/-- All that operations write if nothing stops them. -/
def textOf (f : NumberFormat) (operations : List Operation) : String :=
  ((Writer.new .unlimited f).performAll operations).sink.received

theorem textOf_eq (f : NumberFormat) (operations : List Operation) :
    textOf f operations =
      String.ofList (renderAll f (operations.flatMap Operation.statements)) := by
  have hunlimited : (Writer.new .unlimited f).sink.capacity = none := rfl
  rw [textOf, performAll_unlimited operations hunlimited]
  simp [having, Writer.new, Sink.unlimited]

theorem bytes_textOf (f : NumberFormat) (operations : List Operation) :
    bytes (textOf f operations) =
      (renderAll f (operations.flatMap Operation.statements)).map byteOf := by
  rw [textOf_eq, bytes_renderAll]

theorem Cut.bytes_received (h : Cut n flushFails f text w) (hascii : ∀ c ∈ text, c.toNat < 128) :
    bytes w.sink.received = (text.map byteOf).take n := by
  have htake : ∀ c ∈ text.take n, c.toNat < 128 := fun c hc => hascii c (List.mem_of_mem_take hc)
  rw [← String.ofList_toList (s := w.sink.received), h.received, bytes_ofList htake, List.map_take]

theorem Cut.statements_eq (h : Cut n flushFails f text w) (hascii : ∀ c ∈ text, c.toNat < 128) :
    w.statements = (bytes w.sink.received).count lineFeed := by
  have htake : ∀ c ∈ text.take n, c.toNat < 128 := fun c hc => hascii c (List.mem_of_mem_take hc)
  rw [h.bytes_received hascii, ← List.map_take, count_lineFeed_map_byteOf htake, h.statements]

theorem Cut.writeDocument (h : Cut n flushFails f [] w) (tapes : List (List Record)) :
    Cut n flushFails f (renderAll f (Script.document tapes)) (w.writeDocument tapes).1 ∧
      ((w.writeDocument tapes).2 = .ok () ↔
        (renderAll f (Script.document tapes)).length ≤ n ∧ flushFails = false) := by
  obtain ⟨hcut, hok⟩ := h.writeAll (Script.document tapes)
  rw [List.nil_append] at hcut hok
  unfold Writer.writeDocument
  rcases hresult : w.writeAll (Script.document tapes) with ⟨after, result | _⟩
  · rw [hresult] at hcut hok
    refine ⟨hcut, iff_of_false nofun ?_⟩
    rintro ⟨hlength, -⟩
    exact nomatch hok.2 (.inr hlength)
  · rw [hresult] at hcut hok
    refine ⟨hcut, ?_⟩
    have hlength := (hok.1 rfl).resolve_left nofun
    have hfinish : after.sink.finish = .ok () ↔ flushFails = false := by
      rw [Sink.finish, hcut.flushing]
      cases flushFails <;> simp
    exact hfinish.trans ⟨fun hflush => ⟨hlength, hflush⟩, And.right⟩

theorem writeDocument_unlimited (f : NumberFormat) (tapes : List (List Record)) :
    (Writer.new .unlimited f).writeDocument tapes =
      ((Writer.new .unlimited f).having (Script.document tapes), .ok ()) := by
  have hunlimited : (Writer.new .unlimited f).sink.capacity = none := rfl
  rw [Writer.writeDocument, writeAll_unlimited _ hunlimited]
  rfl

end Writer

theorem Script.render_eq (f : NumberFormat) (tapes : List (List Record)) :
    render f tapes = String.ofList (renderAll f (document tapes)) := by
  rw [render, Writer.writeDocument_unlimited]
  simp [Writer.having, Writer.new, Sink.unlimited]

namespace Writer

theorem bytes_render (f : NumberFormat) (tapes : List (List Record)) :
    bytes (Script.render f tapes) = (renderAll f (Script.document tapes)).map byteOf := by
  rw [Script.render_eq, bytes_renderAll]

theorem render_eq_textOf (f : NumberFormat) (tapes : List (List Record)) :
    Script.render f tapes = textOf f (.header :: tapes.map .tape) := by
  rw [Script.render_eq, textOf_eq, List.flatMap_cons, List.flatMap_map]
  rfl

/-- A sink that takes `n` bytes receives the first `n` bytes of what the operations
write in all, and the writer counts the lines that have arrived. An operation
succeeds if all it writes has arrived, and so does a document that can be flushed. -/
theorem limited_receives_prefix (n : Nat) (stalls flushFails : Bool) (f : NumberFormat)
    (operations : List Operation) :
    let start := Writer.new (.limited n stalls flushFails) f
    let w := start.performAll operations
    bytes w.sink.received = (bytes (textOf f operations)).take n ∧
      w.statements = (bytes w.sink.received).count lineFeed ∧
      (∀ op, (w.perform op).2 = .ok () ↔
        op.statements = [] ∨ (bytes (textOf f (operations ++ [op]))).length ≤ n) ∧
      ∀ tapes,
        let text := bytes (Script.render f tapes)
        bytes (start.writeDocument tapes).1.sink.received = text.take n ∧
          ((start.writeDocument tapes).2 = .ok () ↔ text.length ≤ n ∧ flushFails = false) ∧
          ((Writer.new .unlimited f).writeDocument tapes).2 = .ok () ∧
          ((Writer.new .unlimited f).writeDocument tapes).1.sink.received =
            Script.render f tapes ∧
          Script.render f tapes = textOf f (.header :: tapes.map .tape) := by
  intro start w
  have hstart : Cut n flushFails f [] start := .new n stalls flushFails f
  have hcut := hstart.performAll operations
  rw [List.nil_append] at hcut
  have hascii : ∀ c ∈ renderAll f (operations.flatMap Operation.statements), c.toNat < 128 :=
    fun _ => toNat_lt_of_mem_renderAll
  refine ⟨?_, hcut.statements_eq hascii, fun op => ?_, fun tapes => ?_⟩
  · rw [bytes_textOf]
    exact hcut.bytes_received hascii
  · obtain ⟨-, hok⟩ := hcut.writeAll op.statements
    rw [perform_eq_writeAll, bytes_textOf, List.length_map, List.flatMap_append,
      List.flatMap_singleton, renderAll_append]
    exact hok
  · intro text
    obtain ⟨hdocument, hok⟩ := hstart.writeDocument tapes
    have htext : text = (renderAll f (Script.document tapes)).map byteOf := bytes_render f tapes
    rw [htext, List.length_map, writeDocument_unlimited]
    refine ⟨hdocument.bytes_received fun _ => toNat_lt_of_mem_renderAll, hok, rfl, ?_,
      render_eq_textOf f tapes⟩
    rw [Script.render, writeDocument_unlimited]

end Writer

end CarrierTape
