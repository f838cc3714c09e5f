import CarrierTape.Binary64.Basic
import CarrierTape.Decimal.Fixed

/-!
Lengths with a unit. Drawings are in millimetres; every other unit is converted
by its factor, as a product or a quotient of binary64 numbers.
-/

namespace CarrierTape

inductive LengthUnit where
  | millimetre
  | centimetre
  | metre
  | inch
  | foot
  | mil
deriving DecidableEq, Inhabited

namespace LengthUnit

def all : List LengthUnit :=
  [.millimetre, .centimetre, .metre, .inch, .foot, .mil]

def shortName : LengthUnit → String
  | .millimetre => "mm"
  | .centimetre => "cm"
  | .metre => "m"
  | .inch => "in"
  | .foot => "ft"
  | .mil => "mil"

/-- The unit with exactly this short name. -/
def ofShortName? (name : String) : Option LengthUnit :=
  all.find? (·.shortName == name)

/-- The unit with this short name in any letter case. Only ASCII letters have
another case here. -/
def ofName? (name : String) : Option LengthUnit :=
  ofShortName? (String.ofList (name.toList.map Char.toLower))

def factor : LengthUnit → Binary64
  | .millimetre => 1
  | .centimetre => 10
  | .metre => 1000
  | .inch => 25.4
  | .foot => 25.4 * 12
  | .mil => 25.4 / 1000

end LengthUnit

structure Length where
  value : Binary64
  units : LengthUnit
deriving DecidableEq, Inhabited

namespace Length

def millimetres (value : Binary64) : Length :=
  ⟨value, .millimetre⟩

def inches (value : Binary64) : Length :=
  ⟨value, .inch⟩

def toMillimetres (l : Length) : Binary64 :=
  l.value * l.units.factor

/-- The same length in another unit. A length already in that unit is untouched. -/
def convert (l : Length) (units : LengthUnit) : Length :=
  if l.units = units then l else ⟨l.toMillimetres / units.factor, units⟩

/-- Three decimal places and the unit. -/
def text (l : Length) : String :=
  String.ofList (Decimal.Fixed.padded 3 l.value) ++ l.units.shortName

end Length

end CarrierTape
