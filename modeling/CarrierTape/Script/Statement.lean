import CarrierTape.Record
import CarrierTape.Script.NumberFormat

/-!
The statements of a drawing script. Each is one line that ends in a semicolon;
numbers are written by a `NumberFormat`.
-/

namespace CarrierTape

inductive Statement where
  /-- Sets the unit of all coordinates, once at the start of a script. -/
  | grid
  | layer (id : Layer)
  /-- Sets the stroke of the circles that follow. -/
  | changeWidth (width : Binary64)
  | rect (rect : Rect)
  /-- A circle by its centre and a point on it. -/
  | circle (centre edge : Point)
deriving DecidableEq, Inhabited

namespace Statement

def pointText (f : NumberFormat) (p : Point) : List Char :=
  '(' :: f.format p.x ++ ' ' :: f.format p.y ++ [')']

/-- The statement without the end of its line. -/
def render (f : NumberFormat) : Statement → List Char
  | .grid => "GRID mm 1;".toList
  | .layer id => "LAYER ".toList ++ Nat.toDigits 10 id.toNat ++ [';']
  | .changeWidth w => "CHANGE WIDTH ".toList ++ f.format w ++ [';']
  | .rect r => "RECT ".toList ++ pointText f r.min ++ ' ' :: pointText f r.max ++ [';']
  | .circle c e => "CIRCLE ".toList ++ pointText f c ++ ' ' :: pointText f e ++ [';']

def line (f : NumberFormat) (s : Statement) : List Char :=
  s.render f ++ ['\n']

def renderAll (f : NumberFormat) (statements : List Statement) : List Char :=
  statements.flatMap (line f)

end Statement

end CarrierTape
