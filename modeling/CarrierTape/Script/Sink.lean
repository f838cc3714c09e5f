/-!
Where a script is written: a sink with room for a number of characters. Scripts
are ASCII, so a character is a byte. A write that does not fit leaves as much as
there is room for, and fails.
-/

namespace CarrierTape

inductive SinkError where
  /-- The sink refuses to take more. -/
  | full
  /-- The sink takes nothing more without refusing. -/
  | stalled
  | flush
deriving DecidableEq

namespace SinkError

def message : SinkError → String
  | .full => "failed to write drawing script: no space left"
  | .stalled => "failed to write drawing script: failed to write whole buffer"
  | .flush => "failed to write drawing script: flush failed"

end SinkError

structure Sink where
  /-- The room in all, unlimited if there is no number. -/
  capacity : Option Nat
  /-- Whether the sink, once full, takes nothing instead of refusing. -/
  stalls : Bool
  flushFails : Bool
  received : String
deriving DecidableEq

namespace Sink

def unlimited : Sink :=
  ⟨none, false, false, ""⟩

def room (s : Sink) : Option Nat :=
  s.capacity.map (· - s.received.length)

def fits (s : Sink) (text : List Char) : Bool :=
  s.room.all (text.length ≤ ·)

/-- What of a text reaches the sink. -/
def accepted (s : Sink) (text : List Char) : List Char :=
  match s.room with
  | none => text
  | some n => text.take n

def write (s : Sink) (text : List Char) : Sink × Except SinkError Unit :=
  let result := if s.fits text then .ok () else .error (if s.stalls then .stalled else .full)
  ({ s with received := s.received ++ String.ofList (s.accepted text) }, result)

def finish (s : Sink) : Except SinkError Unit :=
  if s.flushFails then .error .flush else .ok ()

end Sink

end CarrierTape
