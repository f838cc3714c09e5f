import CarrierTape.Binary64.Basic

/-!
Points, rectangles and circles in millimetres. X runs across the tape, Y along
its feed direction.
-/

namespace CarrierTape

structure Point where
  x : Binary64
  y : Binary64
deriving DecidableEq, Inhabited

/-- A rectangle by two opposite corners, which need not be in order. -/
structure Rect where
  min : Point
  max : Point
deriving DecidableEq, Inhabited

namespace Rect

def centred (centre : Point) (halfX halfY : Binary64) : Rect :=
  ⟨⟨centre.x - halfX, centre.y - halfY⟩, ⟨centre.x + halfX, centre.y + halfY⟩⟩

def centre (r : Rect) : Point :=
  ⟨(r.min.x + r.max.x) / 2, (r.min.y + r.max.y) / 2⟩

def width (r : Rect) : Binary64 :=
  r.max.x - r.min.x

def height (r : Rect) : Binary64 :=
  r.max.y - r.min.y

end Rect

/-- A circle with the width of its stroke. Width zero draws a filled circle. -/
structure Circle where
  centre : Point
  radius : Binary64
  width : Binary64
deriving DecidableEq, Inhabited

namespace Circle

def filled (centre : Point) (radius : Binary64) : Circle :=
  ⟨centre, radius, 0⟩

/-- The point on the circle that stands beside its centre along X. -/
def edge (c : Circle) : Point :=
  ⟨c.centre.x + c.radius, c.centre.y⟩

end Circle

inductive Shape where
  | rect (rect : Rect)
  | circle (circle : Circle)
deriving DecidableEq, Inhabited

end CarrierTape
