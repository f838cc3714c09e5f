import CarrierTape.Script.Plan
import CarrierTape.Script.Sink

/-!
Writing a script statement by statement. The writer counts the statements that
have reached its sink whole; the first one that does not ends the operation, but
not the writer.
-/

namespace CarrierTape

structure Writer where
  sink : Sink
  format : NumberFormat
  /-- The statements written so far. -/
  statements : Nat
deriving DecidableEq

namespace Writer

def new (sink : Sink) (format : NumberFormat) : Writer :=
  ⟨sink, format, 0⟩

-- The writer is taken apart first, so that nothing else holds the text that grows.
def writeStatement : Writer → Statement → Writer × Except SinkError Unit
  | ⟨sink, format, statements⟩, s =>
    match sink.write (s.line format) with
    | (sink, .ok ()) => (⟨sink, format, statements + 1⟩, .ok ())
    | (sink, .error e) => (⟨sink, format, statements⟩, .error e)

def writeAll (w : Writer) : List Statement → Writer × Except SinkError Unit
  | [] => (w, .ok ())
  | s :: rest =>
    match w.writeStatement s with
    | (w, .ok ()) => w.writeAll rest
    | failed => failed

def writeHeader (w : Writer) : Writer × Except SinkError Unit :=
  w.writeStatement .grid

def writeTape (w : Writer) (records : List Record) : Writer × Except SinkError Unit :=
  w.writeAll (Script.plan records)

/-- Writes a whole script and flushes the sink. -/
def writeDocument (w : Writer) (tapes : List (List Record)) : Writer × Except SinkError Unit :=
  match w.writeAll (Script.document tapes) with
  | (w, .ok ()) => (w, w.sink.finish)
  | failed => failed

end Writer

/-- The text of a whole script, as a writer without limits leaves it. -/
def Script.render (f : NumberFormat) (tapes : List (List Record)) : String :=
  match (Writer.new .unlimited f).writeDocument tapes with
  | (w, .ok ()) => w.sink.received
  | (_, .error _) => ""

end CarrierTape
