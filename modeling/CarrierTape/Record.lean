import CarrierTape.Geometry

/-!
Drawing records: one shape each, on a numbered layer, with the pass of the
layout that it comes from.
-/

namespace CarrierTape

abbrev Layer := UInt8

/-- The layers of the three passes. -/
structure LayerMap where
  tapeBody : Layer
  holes : Layer
  /-- Without a layer of their own, parts stay on the layer of the holes. -/
  parts : Option Layer
deriving DecidableEq

namespace LayerMap

/-- The documentation layer for the tape, the hole layer for all else. -/
def standard : LayerMap :=
  ⟨51, 45, none⟩

def partLayer (layers : LayerMap) : Layer :=
  layers.parts.getD layers.holes

end LayerMap

inductive Pass where
  | outline
  | hole
  | part
deriving DecidableEq, Inhabited

structure Record where
  pass : Pass
  layer : Layer
  shape : Shape
deriving DecidableEq, Inhabited

namespace Record

def rect? (r : Record) : Option Rect :=
  match r.shape with
  | .rect rect => some rect
  | .circle _ => none

def circle? (r : Record) : Option Circle :=
  match r.shape with
  | .circle circle => some circle
  | .rect _ => none

end Record

end CarrierTape
