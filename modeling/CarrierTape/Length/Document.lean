import CarrierTape.Json.Decoder
import CarrierTape.Json.Printer

/-!
Lengths in documents: a number of millimetres, a text as a user writes it, or an
object with `value` and `units`. The whole value is read before its form is judged.
-/

namespace CarrierTape

namespace Json

/-- The values of all members with this key. -/
def Members.lookup (name : String) : Members → List Json
  | .member (.good key) v rest => if key = name then v :: rest.lookup name else rest.lookup name
  | .member _ _ rest => rest.lookup name
  | _ => []

end Json

namespace Length

open Json

def noForm : Result α :=
  .error (.data .noForm)

/-- The unit in an object: its name, or an object whose only member has that name
and is `null`. -/
def unit? : Json → Option LengthUnit
  | .text (.good name) => LengthUnit.ofShortName? name
  | .object (.member (.good name) .null (.stop _)) => LengthUnit.ofShortName? name
  | _ => none

def number? : Json → Option Binary64
  | .number n => n.number?.map Number.toBinary64
  | _ => none

/-- A length as an object. Other members do not matter, but these two must not be
repeated. -/
def tagged? (members : Members) : Option Length :=
  match members.lookup "value", members.lookup "units" with
  | [v], [u] => do return ⟨← number? v, ← unit? u⟩
  | _, _ => none

/-- The length that a whole value stands for. -/
def ofWhole : Json → Result Length
  | .text (.good s) => (parse s).mapError fun e => .data (.invalidText e)
  | .object members => (tagged? members).elim noForm .ok
  | v => (number? v).elim noForm fun x => .ok (millimetres x)

def decoder : Decoder Length := fun depth v => do
  check depth v
  ofWhole v

def ofDocument (text : String) : Result Length :=
  decodeText decoder text

def json (l : Length) : Json :=
  ofFields [("value", ofNumber l.value), ("units", ofString l.units.shortName)]

end Length

end CarrierTape
