import CarrierTape.Json.Decoder

/-!
Values with named fields. A schema lists the fields in the order in which they
are declared; the same list reads an object, whose members may come in any order,
and an array, which has the values alone. A field that may be missing keeps what
the blank value holds.
-/

namespace CarrierTape.Json

/-- A field of `α`: reading it gives the update that stores what was read. -/
structure Field (α : Type) where
  name : String
  required : Bool
  read : Decoder (α → α)

/-- A field that must be there. -/
def Field.needed (name : String) (read : Decoder β) (store : β → α → α) : Field α :=
  ⟨name, true, fun depth v => (read depth v).map store⟩

/-- A field that may be missing. -/
def Field.spare (name : String) (read : Decoder β) (store : β → α → α) : Field α :=
  ⟨name, false, fun depth v => (read depth v).map store⟩

/-- A text or `null` that is read and forgotten. -/
def Field.remark (name : String) : Field α :=
  .spare name (Decoder.optional Decoder.text) fun _ a => a

structure Schema (α : Type) where
  title : String
  blank : α
  fields : List (Field α)
  /-- Whether names that are not declared are refused; else they are passed over. -/
  closed : Bool
  /-- Whether an array that is too long is refused by its length. -/
  counted : Bool

namespace Schema

variable (s : Schema α)

def names : List String :=
  s.fields.map (·.name)

def field? (name : String) : Option (Field α) :=
  s.fields.find? (·.name == name)

def missing? (seen : List String) : Option String :=
  (s.fields.find? fun f => f.required && !seen.contains f.name).map (·.name)

/-- The field of a key that is no repetition. -/
def declared (seen : List String) (name : String) : Result (Option (Field α)) :=
  match s.field? name with
  | none => if s.closed then .error (.data (.unknownField name s.names)) else .ok none
  | some f => if seen.contains name then .error (.data (.duplicateField name)) else .ok (some f)

def members (depth : Nat) (seen : List String) (a : α) : Members → Result α
  | .stop ending => do
    ending.close
    match s.missing? seen with
    | some name => .error (.data (.missingField name))
    | none => .ok a
  | .oddKey => malformed
  | .keyOnly key fault => do
    let _ ← s.declared seen (← key.get)
    .error (.fault fault)
  | .member key v rest => do
    let name ← key.get
    match ← s.declared seen name with
    | none =>
      skip v
      members depth seen a rest
    | some f =>
      let store ← f.read depth v
      members depth (name :: seen) (store a) rest

/-- How many fields there are, as a message says it. -/
def extent : String :=
  s.title ++ " with " ++ s.fields.length.repr ++ " elements"

/-- Reads the values of the fields in order, as long as there are any. -/
def items (depth : Nat) (a : α) (index : Nat) : List (Field α) → Items → Result (α × Items)
  | [], rest => .ok (a, rest)
  | f :: fs, .item v rest => do
    let store ← f.read depth v
    items depth (store a) (index + 1) fs rest
  | f :: fs, .stop ending => do
    ending.close
    if f.required then .error (.data (.invalidLength index s.extent))
    else items depth a (index + 1) fs (.stop ending)

end Schema

def Items.length : Items → Nat
  | .stop _ => 0
  | .item _ rest => rest.length + 1

namespace Schema

variable (s : Schema α)

/-- What may follow the last field of an array. -/
def closeItems : Items → Result Unit
  | .stop .closed => .ok ()
  | .stop .cut => cutShort
  | rest =>
    if s.counted then
      .error (.data (.invalidLength (s.fields.length + rest.length)
        (s.fields.length.repr ++ " elements in sequence")))
    else malformed

def array (depth : Nat) (xs : Items) : Result α := do
  let (a, rest) ← s.items depth s.blank 0 s.fields xs
  s.closeItems rest
  return a

def read : Decoder α
  | depth, .object ms => if depth = 0 then malformed else s.members (depth - 1) [] s.blank ms
  | depth, .array xs => if depth = 0 then malformed else s.array (depth - 1) xs
  | _, v => mismatch s.title v

end Schema

end CarrierTape.Json
