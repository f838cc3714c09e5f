import CarrierTape.Json.Number
import CarrierTape.Json.Tree
import CarrierTape.Length.Reader
import CarrierTape.Text.Quoted

/-!
Why a document is refused: its text has a fault, or a value in it is not of the
form that is expected there.
-/

namespace CarrierTape.Json

open Decimal

/-- A value as messages describe it. -/
inductive Found where
  | null
  | bool (b : Bool)
  | number (n : Number)
  | text (s : String)
  | sequence
  | map
deriving DecidableEq

def numberText (x : Binary64) : List Char :=
  match x with
  | .finite s m _ => (Numeral.ofDecimal s (Decimal.shortest .even m)).text
  | _ => "null".toList

def ticked (s : String) : String :=
  "`" ++ s ++ "`"

def Found.message : Found → String
  | .null => "null"
  | .bool b => "boolean " ++ ticked (if b then "true" else "false")
  | .number (.integer n) => "integer " ++ ticked (String.ofList (intText n))
  | .number (.float x) => "floating point " ++ ticked (String.ofList (numberText x))
  | .text s => "string " ++ Text.quote s
  | .sequence => "sequence"
  | .map => "map"

/-- How the form of a value can be wrong. -/
inductive Mismatch where
  | unknownField (name : String) (expected : List String)
  | missingField (name : String)
  | duplicateField (name : String)
  | unknownVariant (name : String) (expected : List String)
  | invalidType (found : Found) (expected : String)
  /-- An integer that is out of range. -/
  | invalidValue (found : Found) (expected : String)
  | invalidLength (length : Nat) (expected : String)
  /-- A length in none of its three forms. -/
  | noForm
  | invalidText (error : LengthError)
deriving DecidableEq

def oneOf : List String → String
  | [] => "there are no fields"
  | [a] => ticked a
  | [a, b] => ticked a ++ " or " ++ ticked b
  | names => "one of " ++ ", ".intercalate (names.map ticked)

def Mismatch.message : Mismatch → String
  | .unknownField name expected =>
    "unknown field " ++ ticked name ++ ", expected " ++ oneOf expected
  | .missingField name => "missing field " ++ ticked name
  | .duplicateField name => "duplicate field " ++ ticked name
  | .unknownVariant name expected =>
    "unknown variant " ++ ticked name ++ ", expected " ++ oneOf expected
  | .invalidType found expected => "invalid type: " ++ found.message ++ ", expected " ++ expected
  | .invalidValue found expected => "invalid value: " ++ found.message ++ ", expected " ++ expected
  | .invalidLength n expected => "invalid length " ++ n.repr ++ ", expected " ++ expected
  | .noForm => "data did not match any variant of untagged enum Raw"
  | .invalidText e => e.message

inductive Error where
  | fault (fault : Fault)
  | data (mismatch : Mismatch)
deriving DecidableEq

def Fault.message : Fault → String
  | .malformed => "malformed document"
  | .cutShort => "document ends too early"

def Error.message : Error → String
  | .fault f => f.message
  | .data m => m.message

abbrev Result := Except Error

def malformed : Result α :=
  .error (.fault .malformed)

def cutShort : Result α :=
  .error (.fault .cutShort)

end CarrierTape.Json
