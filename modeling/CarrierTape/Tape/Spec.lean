import CarrierTape.Geometry
import CarrierTape.Tape.Error

/-!
The dimensions of one carrier tape, the coordinates that follow from them, and
the first thing that is wrong with them. A tape is valid if its dimensions and
the outermost coordinates of its drawing are finite, its lengths are not
negative, and it has at most `maxPartCount` pockets.
-/

namespace CarrierTape

/-- A tape in millimetres. The part's width runs along the feed direction and its
height across it. -/
structure TapeSpec where
  originX : Binary64
  originY : Binary64
  tapeWidth : Binary64
  tapePitch : Binary64
  /-- From the reference edge to the row of sprocket holes. -/
  holeEdgeDistance : Binary64
  holeDiameter : Binary64
  /-- From the row of holes to the row of pockets. -/
  partHoleOffset : Binary64
  partWidth : Binary64
  partHeight : Binary64
  partCount : Nat
deriving DecidableEq, Inhabited

def maxPartCount : Nat :=
  1000000

namespace TapeSpec

/-- Where the pitch interval `index` starts along the tape. -/
def pitchOffset (s : TapeSpec) (index : Nat) : Binary64 :=
  s.tapePitch * .ofNat index

/-- Holes sit half a pitch into their interval. -/
def holeCentre (s : TapeSpec) (index : Nat) : Point :=
  ⟨s.originX + s.holeEdgeDistance, s.originY + s.pitchOffset index + s.tapePitch / 2⟩

/-- Parts sit at the end of their interval. -/
def partCentre (s : TapeSpec) (index : Nat) : Point :=
  ⟨s.originX + s.holeEdgeDistance + s.partHoleOffset,
    s.originY + s.pitchOffset index + s.tapePitch⟩

/-- One pitch of margin follows the last pocket. -/
def runLength (s : TapeSpec) : Binary64 :=
  s.tapePitch * (.ofNat s.partCount + 1)

def placedAt (s : TapeSpec) (x y : Binary64) : TapeSpec :=
  { s with originX := x, originY := y }

def withPartCount (s : TapeSpec) (n : Nat) : TapeSpec :=
  { s with partCount := n }

def equals (s t : TapeSpec) : Bool :=
  s.originX.equals t.originX && s.originY.equals t.originY &&
    s.tapeWidth.equals t.tapeWidth && s.tapePitch.equals t.tapePitch &&
    s.holeEdgeDistance.equals t.holeEdgeDistance && s.holeDiameter.equals t.holeDiameter &&
    s.partHoleOffset.equals t.partHoleOffset && s.partWidth.equals t.partWidth &&
    s.partHeight.equals t.partHeight && s.partCount == t.partCount

def origins (s : TapeSpec) : List (Parameter × Binary64) :=
  [(.originX, s.originX), (.originY, s.originY)]

def lengths (s : TapeSpec) : List (Parameter × Binary64) :=
  [(.tapeWidth, s.tapeWidth), (.tapePitch, s.tapePitch),
    (.holeEdgeDistance, s.holeEdgeDistance), (.holeDiameter, s.holeDiameter),
    (.partHoleOffset, s.partHoleOffset), (.partWidth, s.partWidth),
    (.partHeight, s.partHeight)]

/-- The outermost coordinates of the drawing, each with the parameter that pushes
it out. Without pockets the part's own extent does not matter. -/
def extremes (s : TapeSpec) : List (Parameter × Binary64) :=
  let hole := s.holeCentre 0
  [(.holeEdgeDistance, hole.x), (.holeDiameter, hole.x + s.holeDiameter / 2),
    (.tapeWidth, s.originX + s.tapeWidth), (.tapePitch, s.originY + s.runLength)] ++
  match s.partCount with
  | 0 => []
  | last + 1 =>
    let first := s.partCentre 0
    let last := s.partCentre last
    [(.partHoleOffset, first.x), (.partHeight, first.x - s.partHeight / 2),
      (.partHeight, first.x + s.partHeight / 2), (.tapePitch, last.y),
      (.partWidth, first.y - s.partWidth / 2), (.partWidth, last.y + s.partWidth / 2)]

def finiteProblem? (v : Binary64) : Option Problem :=
  if v.isFinite then none else some (.notFinite v)

def lengthProblem? (v : Binary64) : Option Problem :=
  if !v.isFinite then some (.notFinite v)
  else if v < 0 then some (.negative v)
  else none

def placeProblem? (v : Binary64) : Option Problem :=
  if v.isFinite then none else some .unplaceable

def firstProblem? (check : Binary64 → Option Problem) (values : List (Parameter × Binary64)) :
    Option TapeError :=
  values.findSome? fun (parameter, v) => (check v).map (.invalidParameter parameter)

def countError? (s : TapeSpec) : Option TapeError :=
  if maxPartCount < s.partCount then
    some (.invalidParameter .partCount (.tooManyParts maxPartCount s.partCount))
  else none

def error? (s : TapeSpec) : Option TapeError :=
  firstProblem? finiteProblem? s.origins
    <|> firstProblem? lengthProblem? s.lengths
    <|> s.countError?
    <|> firstProblem? placeProblem? s.extremes

def Valid (s : TapeSpec) : Prop :=
  s.error? = none

instance (s : TapeSpec) : Decidable s.Valid :=
  inferInstanceAs (Decidable (_ = _))

def validate (s : TapeSpec) : Except TapeError TapeSpec :=
  match s.error? with
  | some e => .error e
  | none => .ok s

end TapeSpec

/-- A count of pockets that was given as a number. -/
def partCountOf (v : Binary64) : Except TapeError Nat :=
  if !v.isFinite then .error (.invalidParameter .partCount (.notFinite v))
  else if v < 0 then .error (.invalidParameter .partCount (.negative v))
  else if !v.isWhole then .error (.invalidParameter .partCount (.notWhole v))
  else if .ofNat maxPartCount < v then
    .error (.invalidParameter .partCount (.tooMany maxPartCount v))
  else .ok (v.toWord 64)

end CarrierTape
