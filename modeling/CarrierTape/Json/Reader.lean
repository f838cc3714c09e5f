import CarrierTape.Json.Tree

/-!
From texts to trees. Every text has a tree. After a fault that stops any reader,
nothing is read any more. Recursion runs on a count of the characters left, which
no step can exhaust, since each value has at least one.
-/

namespace CarrierTape.Json

open Decimal

def isSpace (c : Char) : Bool :=
  c == ' ' || c == '\t' || c == '\n' || c == '\r'

def skipSpace (cs : List Char) : List Char :=
  cs.dropWhile isSpace

/-! ### Strings -/

/-- The character behind a backslash, unless it starts a code. -/
def escaped? : Char → Option Char
  | '"' => some '"'
  | '\\' => some '\\'
  | '/' => some '/'
  | 'b' => some '\x08'
  | 'f' => some '\x0c'
  | 'n' => some '\n'
  | 'r' => some '\r'
  | 't' => some '\t'
  | _ => none

def hexDigit? (c : Char) : Option Nat :=
  if c.isDigit then some (c.toNat - '0'.toNat)
  else if 'a' ≤ c ∧ c ≤ 'f' then some (c.toNat - 'a'.toNat + 10)
  else if 'A' ≤ c ∧ c ≤ 'F' then some (c.toNat - 'A'.toNat + 10)
  else none

def hexCode? (a b c d : Char) : Option Nat := do
  return ((← hexDigit? a) * 16 + (← hexDigit? b)) * 256
    + ((← hexDigit? c) * 16 + (← hexDigit? d))

/-- What is wrong with a code of fewer than four characters: the text ends within
it, unless its bytes would have been enough. -/
def shortCodeFault (cs : List Char) : Fault :=
  if 4 ≤ (String.ofList cs).utf8ByteSize then .malformed else .cutShort

def isHighSurrogate (n : Nat) : Bool :=
  0xD800 ≤ n && n ≤ 0xDBFF

def isLowSurrogate (n : Nat) : Bool :=
  0xDC00 ≤ n && n ≤ 0xDFFF

def joinSurrogates (high low : Nat) : Char :=
  Char.ofNat (0x10000 + (high - 0xD800) * 0x400 + (low - 0xDC00))

def prepend (c : Char) :
    Except Fault (List Char × List Char) → Except Fault (List Char × List Char)
  | .ok (decoded, rest) => .ok (c :: decoded, rest)
  | .error fault => .error fault

/-- Decodes a string behind its opening quote: its characters, and the text behind
its closing quote. -/
def decode : List Char → Except Fault (List Char × List Char)
  | [] => .error .cutShort
  | '"' :: rest => .ok ([], rest)
  | ['\\'] => .error .cutShort
  | '\\' :: 'u' :: a :: b :: c :: d :: rest =>
    match hexCode? a b c d with
    | none => .error .malformed
    | some n =>
      if isLowSurrogate n then .error .malformed
      else if isHighSurrogate n then
        match rest with
        | '\\' :: 'u' :: e :: f :: g :: h :: rest =>
          match hexCode? e f g h with
          | none => .error .malformed
          | some m =>
            if isLowSurrogate m then prepend (joinSurrogates n m) (decode rest)
            else .error .malformed
        | '\\' :: 'u' :: short => .error (shortCodeFault short)
        | [] | ['\\'] => .error .cutShort
        | _ => .error .malformed
      else prepend (Char.ofNat n) (decode rest)
  | '\\' :: 'u' :: short => .error (shortCodeFault short)
  | '\\' :: c :: rest =>
    match escaped? c with
    | some c => prepend c (decode rest)
    | none => .error .malformed
  | c :: rest => if c.toNat < 32 then .error .malformed else prepend c (decode rest)

/-- Passes over a string behind its opening quote. Any code of four digits will do. -/
def skipString : List Char → Except Fault (List Char)
  | [] => .error .cutShort
  | '"' :: rest => .ok rest
  | ['\\'] => .error .cutShort
  | '\\' :: 'u' :: a :: b :: c :: d :: rest =>
    if (hexCode? a b c d).isSome then skipString rest else .error .malformed
  | '\\' :: 'u' :: short => .error (shortCodeFault short)
  | '\\' :: c :: rest => if (escaped? c).isSome then skipString rest else .error .malformed
  | c :: rest => if c.toNat < 32 then .error .malformed else skipString rest

def readQuoted (cs : List Char) : Quoted × List Char :=
  match decode cs with
  | .ok (decoded, rest) => (.good (String.ofList decoded), rest)
  | .error fault =>
    match skipString cs with
    | .ok rest => (.bad fault none, rest)
    | .error skipFault => (.bad fault (some skipFault), [])

/-! ### Numbers -/

/-- A number that breaks off before `rest`, where a digit is missing. -/
def brokenNumber (rest : List Char) : Json × List Char :=
  (.broken (if rest.isEmpty then .cutShort else .malformed) .malformed, [])

def afterExponentSign : List Char → List Char
  | c :: rest => if c = '+' ∨ c = '-' then rest else c :: rest
  | [] => []

def readExponentPart (negative : Bool) (whole fraction cs : List Char) : Json × List Char :=
  match cs with
  | c :: rest =>
    if c = 'e' ∨ c = 'E' then
      match Numeral.readExponent? rest with
      | some (exponent, rest) => (.number ⟨negative, whole, fraction, some exponent⟩, rest)
      | none => brokenNumber (afterExponentSign rest)
    else (.number ⟨negative, whole, fraction, none⟩, cs)
  | [] => (.number ⟨negative, whole, fraction, none⟩, [])

def readFractionPart (negative : Bool) (whole cs : List Char) : Json × List Char :=
  match cs with
  | '.' :: rest =>
    let (fraction, rest) := Numeral.takeDigits rest
    if fraction.isEmpty then brokenNumber rest
    else readExponentPart negative whole fraction rest
  | _ => readExponentPart negative whole [] cs

/-- Reads a number behind its sign. Only the number zero starts with a zero. -/
def readNumber (negative : Bool) (cs : List Char) : Json × List Char :=
  match Numeral.takeDigits cs with
  | ([], rest) => brokenNumber rest
  | ('0' :: _ :: _, _) => (.broken .malformed .malformed, [])
  | (whole, rest) => readFractionPart negative whole rest

/-! ### Values -/

def readWord (value : Json) : List Char → List Char → Json × List Char
  | [], cs => (value, cs)
  | _ :: _, [] => (.broken .cutShort .cutShort, [])
  | l :: letters, c :: cs =>
    if l = c then readWord value letters cs else (.broken .malformed .malformed, [])

mutual

def readValue : Nat → List Char → Json × List Char
  | 0, _ => (.absent, [])
  | fuel + 1, cs =>
    match skipSpace cs with
    | [] => (.absent, [])
    | '"' :: rest =>
      let (quoted, rest) := readQuoted rest
      (.text quoted, rest)
    | '[' :: rest =>
      let (items, rest) := readItems fuel rest
      (.array items, rest)
    | '{' :: rest =>
      let (members, rest) := readMembers fuel rest
      (.object members, rest)
    | 'n' :: rest => readWord .null ['u', 'l', 'l'] rest
    | 't' :: rest => readWord (.bool true) ['r', 'u', 'e'] rest
    | 'f' :: rest => readWord (.bool false) ['a', 'l', 's', 'e'] rest
    | '-' :: rest => readNumber true rest
    | c :: rest =>
      if c.isDigit then readNumber false (c :: rest) else (.broken .malformed .malformed, [])

/-- Reads an array behind its opening bracket. -/
def readItems : Nat → List Char → Items × List Char
  | 0, _ => (.stop .cut, [])
  | fuel + 1, cs =>
    match skipSpace cs with
    | [] => (.stop .cut, [])
    | ']' :: rest => (.stop .closed, rest)
    | cs => readItem fuel cs

/-- Reads an item and what follows it. -/
def readItem : Nat → List Char → Items × List Char
  | 0, _ => (.stop .cut, [])
  | fuel + 1, cs =>
    let (value, rest) := readValue fuel cs
    let (items, rest) := readMoreItems fuel rest
    (.item value items, rest)

def readMoreItems : Nat → List Char → Items × List Char
  | 0, _ => (.stop .cut, [])
  | fuel + 1, cs =>
    match skipSpace cs with
    | [] => (.stop .cut, [])
    | ']' :: rest => (.stop .closed, rest)
    | ',' :: rest =>
      match skipSpace rest with
      | [] => (.stop .cutAfterComma, [])
      | ']' :: _ => (.stop .stray, [])
      | rest => readItem fuel rest
    | _ => (.stop .stray, [])

/-- Reads an object behind its opening brace. -/
def readMembers : Nat → List Char → Members × List Char
  | 0, _ => (.stop .cut, [])
  | fuel + 1, cs =>
    match skipSpace cs with
    | [] => (.stop .cut, [])
    | '}' :: rest => (.stop .closed, rest)
    | '"' :: rest => readMember fuel rest
    | _ => (.oddKey, [])

/-- Reads a member behind the opening quote of its key, and what follows it. -/
def readMember : Nat → List Char → Members × List Char
  | 0, _ => (.stop .cut, [])
  | fuel + 1, cs =>
    let (key, rest) := readQuoted cs
    match skipSpace rest with
    | [] => (.keyOnly key .cutShort, [])
    | ':' :: rest =>
      let (value, rest) := readValue fuel rest
      let (members, rest) := readMoreMembers fuel rest
      (.member key value members, rest)
    | _ => (.keyOnly key .malformed, [])

def readMoreMembers : Nat → List Char → Members × List Char
  | 0, _ => (.stop .cut, [])
  | fuel + 1, cs =>
    match skipSpace cs with
    | [] => (.stop .cut, [])
    | '}' :: rest => (.stop .closed, rest)
    | ',' :: rest =>
      match skipSpace rest with
      | [] => (.stop .cutAfterComma, [])
      | '"' :: rest => readMember fuel rest
      | _ => (.stop .stray, [])
    | _ => (.stop .stray, [])

end

/-- The tree of a text. Between two characters that are read, at most three calls
are made. -/
def ofText (text : String) : Document :=
  let cs := text.toList
  let (root, rest) := readValue (3 * cs.length + 3) cs
  ⟨root, !(skipSpace rest).isEmpty⟩

end CarrierTape.Json
