import CarrierTape.Record
import CarrierTape.Tape.Spec

/-!
The drawing of a tape: its outline, then all holes, then all parts. The passes
never interleave, so a drawing changes its layer at most twice.
-/

namespace CarrierTape.TapeSpec

-- The power of the core library, also where another one is at hand.
attribute [local instance (high)] instPowNat

def outline (s : TapeSpec) : Rect :=
  ⟨⟨s.originX, s.originY⟩, ⟨s.originX + s.tapeWidth, s.originY + s.runLength⟩⟩

def hole (s : TapeSpec) (index : Nat) : Circle :=
  .filled (s.holeCentre index) (s.holeDiameter / 2)

/-- The part's height runs across the tape, its width along it. -/
def part (s : TapeSpec) (index : Nat) : Rect :=
  .centred (s.partCentre index) (s.partHeight / 2) (s.partWidth / 2)

def outlineRecord (layers : LayerMap) (s : TapeSpec) : Record :=
  ⟨.outline, layers.tapeBody, .rect s.outline⟩

def holeRecord (layers : LayerMap) (s : TapeSpec) (index : Nat) : Record :=
  ⟨.hole, layers.holes, .circle (s.hole index)⟩

def partRecord (layers : LayerMap) (s : TapeSpec) (index : Nat) : Record :=
  ⟨.part, layers.partLayer, .rect (s.part index)⟩

def records (layers : LayerMap) (s : TapeSpec) : List Record :=
  s.outlineRecord layers ::
    ((List.range s.partCount).map (s.holeRecord layers) ++
      (List.range s.partCount).map (s.partRecord layers))

def recordCountBound : Nat :=
  2 ^ (64 : Nat)

/-- One outline, and a hole and a part for every pocket. -/
def recordCount (s : TapeSpec) : Nat :=
  1 + 2 * s.partCount

def draw (layers : LayerMap) (s : TapeSpec) : Except TapeError (List Record) := do
  let s ← s.validate
  if s.recordCount < recordCountBound then return s.records layers
  else throw (.invalidParameter .partCount .tooManyRecords)

theorem length_records (layers : LayerMap) (s : TapeSpec) :
    (s.records layers).length = s.recordCount := by
  simp only [records, recordCount, List.length_cons, List.length_append, List.length_map,
    List.length_range]
  omega

end CarrierTape.TapeSpec
