import CarrierTape.Decimal.Shortest

/-!
How shortest decimals are written. A style says which exponents are written
positionally, whether a whole number keeps a point, and which way ties go;
`Style.render` is the one printer for all of them.
-/

namespace CarrierTape

namespace Decimal

structure Style where
  tie : Tie
  /-- The exponents, of the leading digit, that are not written as such. -/
  positional : Int → Bool
  /-- What follows a whole number written positionally. -/
  wholeMark : List Char

/-- The power of ten that the leading digit counts. -/
def leadingExponent (d : Decimal) : Int :=
  d.exponent + (Nat.toDigits 10 d.digits).length - 1

/-- Digits with a point after the first `point` of them, padded with zeros. -/
def placePoint (digits : List Char) (point : Int) (wholeMark : List Char) : List Char :=
  if point ≤ 0 then ['0', '.'] ++ List.replicate (-point).toNat '0' ++ digits
  else if point < digits.length then
    digits.take point.toNat ++ '.' :: digits.drop point.toNat
  else digits ++ List.replicate (point - digits.length).toNat '0' ++ wholeMark

def pointAfterFirst : List Char → List Char
  | [] => []
  | [c] => [c]
  | c :: rest => c :: '.' :: rest

def intText : Int → List Char
  | .ofNat n => Nat.toDigits 10 n
  | .negSucc n => '-' :: Nat.toDigits 10 (n + 1)

namespace Style

def renderDecimal (style : Style) (d : Decimal) : List Char :=
  let digits := Nat.toDigits 10 d.digits
  let leading := d.leadingExponent
  if style.positional leading then placePoint digits (leading + 1) style.wholeMark
  else pointAfterFirst digits ++ 'e' :: intText leading

def sign (negative : Bool) : List Char :=
  if negative then ['-'] else []

/-- The text of a number. The sign of a zero is kept. -/
def render (style : Style) : Binary64 → List Char
  | .nan => ['N', 'a', 'N']
  | .infinite s => sign s ++ ['i', 'n', 'f']
  | .finite s m _ => sign s ++ style.renderDecimal (shortest style.tie m)

/-- Numbers in messages are never written with an exponent. -/
def message : Style :=
  ⟨.upper, fun _ => true, []⟩

/-- Numbers in the log keep a point, and have an exponent below 10^-4 and from
10^16 on. -/
def log : Style :=
  ⟨.upper, fun e => -4 ≤ e && e < 16, ['.', '0']⟩

/-- The exponent form of every number: one digit before the point. -/
def scientific : Style :=
  ⟨.upper, fun _ => false, []⟩

end Style

end Decimal

def Binary64.text (x : Binary64) : String :=
  String.ofList (Decimal.Style.message.render x)

end CarrierTape
