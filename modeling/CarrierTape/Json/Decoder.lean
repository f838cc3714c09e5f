import CarrierTape.Json.Error
import CarrierTape.Json.Reader

/-!
Reading values out of a tree, from left to right, up to the first thing that is
wrong. A decoder is told how many arrays and objects may still be opened around
the value; a document may nest 127 of them.
-/

namespace CarrierTape.Json

open Decimal

abbrev Decoder (α : Type) := Nat → Json → Result α

def maxDepth : Nat :=
  127

/-! ### Whole values -/

def Quoted.get : Quoted → Result String
  | .good s => .ok s
  | .bad fault _ => .error (.fault fault)

def Quoted.skip : Quoted → Result Unit
  | .good _ => .ok ()
  | .bad _ none => .ok ()
  | .bad _ (some fault) => .error (.fault fault)

/-- The end of an array or object that may end here. -/
def Ending.close : Ending → Result Unit
  | .closed => .ok ()
  | .cut | .cutAfterComma => cutShort
  | .stray => malformed

mutual

def check (depth : Nat) : Json → Result Unit
  | .absent => cutShort
  | .broken fault _ => .error (.fault fault)
  | .null | .bool _ => .ok ()
  | .number n => if n.number?.isSome then .ok () else malformed
  | .text q => q.get.map fun _ => ()
  | .array items => if depth = 0 then malformed else checkItems (depth - 1) items
  | .object members => if depth = 0 then malformed else checkMembers (depth - 1) members

def checkItems (depth : Nat) : Items → Result Unit
  | .stop ending => ending.close
  | .item v rest => do
    check depth v
    checkItems depth rest

def checkMembers (depth : Nat) : Members → Result Unit
  | .stop ending => ending.close
  | .oddKey => malformed
  | .keyOnly key fault => do
    let _ ← key.get
    .error (.fault fault)
  | .member key v rest => do
    let _ ← key.get
    check depth v
    checkMembers depth rest

end

mutual

/-- Passes over a value. Numbers may be too large, codes in strings may be lone
surrogates, and nesting has no limit. -/
def skip : Json → Result Unit
  | .absent => cutShort
  | .broken _ fault => .error (.fault fault)
  | .null | .bool _ | .number _ => .ok ()
  | .text q => q.skip
  | .array items => skipItems items
  | .object members => skipMembers members

def skipItems : Items → Result Unit
  | .stop ending => ending.close
  | .item v rest => do
    skip v
    skipItems rest

def skipMembers : Members → Result Unit
  | .stop ending => ending.close
  | .oddKey => malformed
  | .keyOnly key fault => do
    key.skip
    .error (.fault fault)
  | .member key v rest => do
    key.skip
    skip v
    skipMembers rest

end

/-! ### Scalars -/

/-- Refuses a value that is not of the expected form. An array or object is refused
as it opens, all else once it is read. -/
def mismatch (expected : String) : Json → Result α
  | .absent => cutShort
  | .broken fault _ => .error (.fault fault)
  | .null => .error (.data (.invalidType .null expected))
  | .bool b => .error (.data (.invalidType (.bool b) expected))
  | .number n =>
    match n.number? with
    | none => malformed
    | some x => .error (.data (.invalidType (.number x) expected))
  | .text q => do .error (.data (.invalidType (.text (← q.get)) expected))
  | .array _ => .error (.data (.invalidType .sequence expected))
  | .object _ => .error (.data (.invalidType .map expected))

namespace Decoder

-- The power of the core library, also where another one is at hand.
attribute [local instance (high)] instPowNat

def text : Decoder String
  | _, .text q => q.get
  | _, v => mismatch "a string" v

def number : Decoder Binary64
  | _, .number n =>
    match n.number? with
    | none => malformed
    | some x => .ok x.toBinary64
  | _, v => mismatch "f64" v

def natural (bound : Nat) (expected : String) : Decoder Nat
  | _, .number n =>
    match n.number? with
    | some (.integer (.ofNat k)) =>
      if k < bound then .ok k
      else .error (.data (.invalidValue (.number (.integer k)) expected))
    | some (.integer i) => .error (.data (.invalidValue (.number (.integer i)) expected))
    | _ => mismatch expected (.number n)
  | _, v => mismatch expected v

def byte : Decoder UInt8 :=
  fun depth v => (natural (2 ^ (8 : Nat)) "u8" depth v).map Nat.toUInt8

def size : Decoder Nat :=
  natural (2 ^ (64 : Nat)) "usize"

def optional (read : Decoder α) : Decoder (Option α)
  | _, .null => .ok none
  | depth, v => (read depth v).map some

def null (expected : String) : Decoder Unit
  | _, .null => .ok ()
  | _, v => mismatch expected v

/-! ### Sequences and names -/

def items (read : Decoder α) (depth : Nat) : Items → Result (List α)
  | .stop ending => ending.close.map fun () => []
  | .item v rest => do
    let a ← read depth v
    return a :: (← items read depth rest)

def sequence (read : Decoder α) : Decoder (List α)
  | depth, .array xs => if depth = 0 then malformed else items read (depth - 1) xs
  | _, v => mismatch "a sequence" v

def named (table : List (String × α)) (name : String) : Result α :=
  match table.find? (·.1 == name) with
  | some (_, a) => .ok a
  | none => .error (.data (.unknownVariant name (table.map (·.1))))

/-- A name where only a string can stand. -/
def variantName (table : List (String × α)) : Json → Result α
  | .text q => do named table (← q.get)
  | v => mismatch "variant identifier" v

/-- The end of an object of one member. -/
def closeSingle : Members → Result Unit
  | .stop .closed => .ok ()
  | .stop .cut => cutShort
  | _ => malformed

/-- A name by itself, or as the only key of an object whose value is `null`. -/
def variant (table : List (String × α)) : Decoder α
  | _, .absent => cutShort
  | _, .text q => do named table (← q.get)
  | 0, .object _ => malformed
  | _ + 1, .object (.stop .cut) => cutShort
  | _ + 1, .object (.stop _) => malformed
  | _ + 1, .object .oddKey => malformed
  | _ + 1, .object (.keyOnly key fault) => do
    let _ ← named table (← key.get)
    .error (.fault fault)
  | depth + 1, .object (.member key v rest) => do
    let a ← named table (← key.get)
    null "unit" depth v
    closeSingle rest
    return a
  | _, _ => malformed

end Decoder

/-- What a document holds. Nothing may follow its value. -/
def Document.decode (read : Decoder α) (d : Document) : Result α := do
  let a ← read maxDepth d.root
  if d.trailing then malformed else return a

def decodeText (read : Decoder α) (text : String) : Result α :=
  (ofText text).decode read

end CarrierTape.Json
