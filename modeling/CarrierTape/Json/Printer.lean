import CarrierTape.Json.Error

/-!
Trees as texts, without white space. Only trees of whole values are ever printed;
what stands for a fault of a text has no text.
-/

namespace CarrierTape.Json

open Decimal

/-- A character of a string: quotes, backslashes and control characters as codes. -/
def printChar (c : Char) : List Char :=
  if c = '"' ∨ c = '\\' then ['\\', c]
  else if c.toNat < 16 then "\\u000".toList ++ Nat.toDigits 16 c.toNat
  else if c.toNat < 32 then "\\u00".toList ++ Nat.toDigits 16 c.toNat
  else [c]

def printQuoted : Quoted → List Char
  | .good s => '"' :: s.toList.flatMap printChar ++ ['"']
  | .bad .. => []

mutual

def print : Json → List Char
  | .absent | .broken .. => []
  | .null => "null".toList
  | .bool true => "true".toList
  | .bool false => "false".toList
  | .number n => n.text
  | .text q => printQuoted q
  | .array (.stop _) => ['[', ']']
  | .array (.item v rest) => '[' :: print v ++ printItems rest
  | .object (.member key v rest) => '{' :: printQuoted key ++ ':' :: print v ++ printMembers rest
  | .object _ => ['{', '}']

/-- The items behind the first one. -/
def printItems : Items → List Char
  | .stop _ => [']']
  | .item v rest => ',' :: print v ++ printItems rest

/-- The members behind the first one. -/
def printMembers : Members → List Char
  | .member key v rest => ',' :: printQuoted key ++ ':' :: print v ++ printMembers rest
  | _ => ['}']

end

/-! ### Trees of values -/

def ofString (s : String) : Json :=
  .text (.good s)

/-- Numbers that are not finite have no numeral. -/
def ofNumber : Binary64 → Json
  | .finite s m _ => .number (Numeral.ofDecimal s (Decimal.shortest .even m))
  | _ => .null

def ofNat (n : Nat) : Json :=
  .number ⟨false, Nat.toDigits 10 n, [], none⟩

def Members.ofList : List (String × Json) → Members
  | [] => .stop .closed
  | (key, v) :: rest => .member (.good key) v (ofList rest)

def ofFields (fields : List (String × Json)) : Json :=
  .object (.ofList fields)

end CarrierTape.Json
