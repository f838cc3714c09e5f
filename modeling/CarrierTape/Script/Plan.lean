import CarrierTape.Script.Statement

/-!
From records to statements. The layer and the stroke width are changed only
where a record needs another one than the pen has. Every tape starts with a pen
that has neither, so its statements stand on their own.
-/

namespace CarrierTape

/-- What the statements so far have set. -/
structure Pen where
  layer : Option Layer
  width : Option Binary64
deriving DecidableEq

namespace Pen

def unset : Pen :=
  ⟨none, none⟩

/-- Whether circles of this width can be drawn as things stand. No pen has the
width NaN, which equals nothing. -/
def hasWidth (pen : Pen) (width : Binary64) : Bool :=
  pen.width.any (·.equals width)

end Pen

namespace Script

def layerChange (pen : Pen) (layer : Layer) : List Statement :=
  if pen.layer = some layer then [] else [.layer layer]

def widthChange (pen : Pen) : Shape → List Statement
  | .rect _ => []
  | .circle c => if pen.hasWidth c.width then [] else [.changeWidth c.width]

def drawn : Shape → Statement
  | .rect r => .rect r
  | .circle c => .circle c.centre c.edge

def penAfter (pen : Pen) (r : Record) : Pen :=
  match r.shape with
  | .rect _ => ⟨some r.layer, pen.width⟩
  | .circle c => ⟨some r.layer, if pen.hasWidth c.width then pen.width else some c.width⟩

def planFrom (pen : Pen) : List Record → List Statement
  | [] => []
  | r :: rest =>
    layerChange pen r.layer ++ widthChange pen r.shape ++
      drawn r.shape :: planFrom (penAfter pen r) rest

def plan (records : List Record) : List Statement :=
  planFrom .unset records

/-- The statements of a whole script: its header, then every tape. -/
def document (tapes : List (List Record)) : List Statement :=
  .grid :: tapes.flatMap plan

end Script

end CarrierTape
