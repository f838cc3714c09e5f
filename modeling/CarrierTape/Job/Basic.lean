import CarrierTape.Job.Error
import CarrierTape.Script.Writer
import CarrierTape.Tape.Drawing
import CarrierTape.Tape.Standard

/-!
Jobs: several tapes in one drawing. What a tape leaves open is taken from the
EIA-481 standard, from its chip code, or from the tape before it: tapes without a
place of their own stand side by side, each a gap to the right of the one before.
-/

namespace CarrierTape

structure TapeEntry where
  name : Option String
  originX : Option Length
  originY : Option Length
  tapeWidth : Option Length
  tapePitch : Length
  holeEdgeDistance : Option Length
  holeDiameter : Option Length
  partHoleOffset : Option Length
  /-- A chip size code. -/
  part : Option String
  partWidth : Option Length
  partHeight : Option Length
  partCount : Binary64
deriving DecidableEq, Inhabited

structure Job where
  /-- The schema that the job's document names, for people and editors. -/
  schemaReference : Option String := none
  gap : Length
  tapes : List TapeEntry
deriving DecidableEq

structure PlacedTape where
  name : String
  spec : TapeSpec
deriving DecidableEq

namespace TapeEntry

def label (e : TapeEntry) : String :=
  e.name.getD "unnamed"

/-- The tape's width and its distance from the holes to the pockets. Either may be
left out, but not both. -/
def widthAndOffset (e : TapeEntry) : Except EntryError (Binary64 × Binary64) :=
  match e.tapeWidth, e.partHoleOffset with
  | some width, some offset => .ok (width.toMillimetres, offset.toMillimetres)
  | some width, none =>
    let width := width.toMillimetres
    match Standard.pocketOffset? width with
    | some offset => .ok (width, offset)
    | none => .error (.tape (.unsupportedWidth width))
  | none, some offset =>
    let offset := offset.toMillimetres
    .ok (Standard.widthForOffset offset, offset)
  | none, none => .error (.missing .tapeWidth)

def chip (e : TapeEntry) : Except EntryError (Option Standard.ChipSize) :=
  match e.part with
  | none => .ok none
  | some code => ((Standard.chipSize code).map some).mapError .tape

/-- A value given by itself or else by the chip code. -/
def required (value : Missing) (given fromChip : Option Length) : Except EntryError Length :=
  match given <|> fromChip with
  | some l => .ok l
  | none => .error (.missing value)

/-- The valid tape of an entry. Without an `originX` it is placed at `x`. -/
def resolve (e : TapeEntry) (x : Binary64) : Except EntryError TapeSpec := do
  let (tapeWidth, partHoleOffset) ← e.widthAndOffset
  let chip ← e.chip
  let partWidth ← required .partWidth e.partWidth (chip.map (·.length))
  let partHeight ← required .partHeight e.partHeight (chip.map (·.width))
  let partCount ← (partCountOf e.partCount).mapError .tape
  let spec : TapeSpec :=
    { originX := e.originX.elim x Length.toMillimetres
      originY := e.originY.elim 0 Length.toMillimetres
      tapeWidth
      tapePitch := e.tapePitch.toMillimetres
      holeEdgeDistance := e.holeEdgeDistance.elim Standard.holeEdgeDistance Length.toMillimetres
      holeDiameter := e.holeDiameter.elim Standard.holeDiameter Length.toMillimetres
      partHoleOffset
      partWidth := partWidth.toMillimetres
      partHeight := partHeight.toMillimetres
      partCount }
  spec.validate.mapError .tape

/-- What a job makes of its entry with this index: a tape, or the error that names the entry. -/
def resolveAt (e : TapeEntry) (index : Nat) (x : Binary64) : Except JobError TapeSpec :=
  (e.resolve x).mapError (.entry index e.label)

end TapeEntry

namespace Job

def defaultGap : Length :=
  .millimetres 2

def nextOrigin (gap : Binary64) (s : TapeSpec) : Binary64 :=
  s.originX + s.tapeWidth + gap

/-- Places tapes from `x` on, up to the first one that cannot be resolved. -/
def placeFrom (gap x : Binary64) (index : Nat) :
    List TapeEntry → List PlacedTape × Option JobError
  | [] => ([], none)
  | e :: rest =>
    match e.resolveAt index x with
    | .error error => ([], some error)
    | .ok spec =>
      let (placed, error) := placeFrom gap (nextOrigin gap spec) (index + 1) rest
      (⟨e.label, spec⟩ :: placed, error)

/-- What is wrong with a job before any of its tapes is looked at. -/
def error? (job : Job) : Option JobError :=
  let gap := job.gap.toMillimetres
  if job.tapes.isEmpty then some .empty
  else if !gap.isFinite ∨ gap < 0 then some (.invalidGap job.gap)
  else none

/-- The tapes that can be placed, and what is wrong with the one behind them. -/
def place (job : Job) : List PlacedTape × Option JobError :=
  match job.error? with
  | some error => ([], some error)
  | none => placeFrom job.gap.toMillimetres 0 0 job.tapes

def resolve (job : Job) : Except JobError (List PlacedTape) :=
  match job.place with
  | (placed, none) => .ok placed
  | (_, some error) => .error error

/-- The drawings of placed tapes, up to the first one that is not valid. -/
def drawFrom (layers : LayerMap) (index : Nat) :
    List PlacedTape → Except JobError (List (List Record))
  | [] => .ok []
  | t :: rest =>
    match t.spec.draw layers with
    | .error error => .error (.entry index t.name (.tape error))
    | .ok records => (drawFrom layers (index + 1) rest).map (records :: ·)

/-- The records of every tape. One invalid tape leaves no records at all. -/
def layout (layers : LayerMap) (job : Job) : Except JobError (List (List Record)) := do
  let placed ← job.resolve
  drawFrom layers 0 placed

def render (layers : LayerMap) (format : NumberFormat) (job : Job) : Except JobError String :=
  (job.layout layers).map (Script.render format)

end Job

end CarrierTape
