import CarrierTape.Json.Printer
import CarrierTape.Json.Schema
import CarrierTape.Record

/-!
Records in documents. A shape is tagged with its type: the tag is a member of the
shape, or stands in front of its values. All of a shape but the tag is read before
it is known to be a rectangle or a circle.
-/

namespace CarrierTape

open Json

def Point.schema : Schema Point where
  title := "struct Point"
  blank := default
  closed := false
  counted := true
  fields :=
    [.needed "x" Decoder.number fun v p => { p with x := v },
      .needed "y" Decoder.number fun v p => { p with y := v }]

def Rect.schema : Schema Rect where
  title := "struct Rect"
  blank := default
  closed := false
  counted := true
  fields :=
    [.needed "min" Point.schema.read fun v r => { r with min := v },
      .needed "max" Point.schema.read fun v r => { r with max := v }]

def Circle.schema : Schema Circle where
  title := "struct Circle"
  blank := default
  closed := false
  counted := true
  fields :=
    [.needed "centre" Point.schema.read fun v c => { c with centre := v },
      .needed "radius" Decoder.number fun v c => { c with radius := v },
      .needed "width" Decoder.number fun v c => { c with width := v }]

namespace Shape

/-- The types of shapes, each with the reader for what is not the tag. -/
def types : List (String × Decoder Shape) :=
  [("rect", fun depth v => (Rect.schema.read depth v).map .rect),
    ("circle", fun depth v => (Circle.schema.read depth v).map .circle)]

/-- Reads an object up to its end: all members, and the type among them. -/
def typeOfMembers (depth : Nat) (found : Option (Decoder Shape)) :
    Members → Result (Decoder Shape)
  | .stop ending => do
    ending.close
    match found with
    | some read => .ok read
    | none => .error (.data (.missingField "type"))
  | .oddKey => malformed
  | .keyOnly key fault => do
    if (← key.get) = "type" ∧ found.isSome then .error (.data (.duplicateField "type"))
    else .error (.fault fault)
  | .member key v rest => do
    if (← key.get) = "type" then
      if found.isSome then .error (.data (.duplicateField "type"))
      else typeOfMembers depth (some (← Decoder.variantName types v)) rest
    else
      check depth v
      typeOfMembers depth found rest

/-- Reads an array up to its end: the type, and the values behind it. -/
def typeOfItems (depth : Nat) : Items → Result (Decoder Shape × Items)
  | .stop ending => do
    ending.close
    .error (.data (.missingField "type"))
  | .item v rest => do
    let read ← Decoder.variantName types v
    checkItems depth rest
    return (read, rest)

def decoder : Decoder Shape
  | 0, .object _ | 0, .array _ => malformed
  | depth + 1, .object ms => do
    let read ← typeOfMembers depth none ms
    read (depth + 1) (.object ms)
  | depth + 1, .array xs => do
    let (read, rest) ← typeOfItems depth xs
    read (depth + 1) (.array rest)
  | _, v => mismatch "internally tagged enum Shape" v

end Shape

def Pass.name : Pass → String
  | .outline => "outline"
  | .hole => "hole"
  | .part => "part"

def Pass.table : List (String × Pass) :=
  [.outline, .hole, .part].map fun pass => (Pass.name pass, pass)

namespace Record

def schema : Schema Record where
  title := "struct Record"
  blank := default
  closed := false
  counted := false
  fields :=
    [.needed "kind" (Decoder.variant Pass.table) fun v r => { r with pass := v },
      .needed "layer" Decoder.byte fun v r => { r with layer := v },
      .needed "shape" Shape.decoder fun v r => { r with shape := v }]

def ofDocument (text : String) : Result Record :=
  decodeText schema.read text

end Record

def Point.json (p : Point) : Json :=
  ofFields [("x", ofNumber p.x), ("y", ofNumber p.y)]

def Shape.json : Shape → Json
  | .rect r =>
    ofFields [("type", ofString "rect"), ("min", r.min.json), ("max", r.max.json)]
  | .circle c =>
    ofFields [("type", ofString "circle"), ("centre", c.centre.json),
      ("radius", ofNumber c.radius), ("width", ofNumber c.width)]

def Record.json (r : Record) : Json :=
  ofFields [("kind", ofString r.pass.name), ("layer", ofNat r.layer.toNat),
    ("shape", r.shape.json)]

end CarrierTape
