import CarrierTape.Json.Reader
import CarrierTape.Proofs.Decimal.Reader

/-!
The grammar of documents, as a relation between trees and texts. It says how a tree may be
written: with white space around every token, any escapes in strings, either mark and any
sign in exponents. Only trees without faults can be written (`Spells`).
-/

namespace CarrierTape.Json

open Decimal

def Space (cs : List Char) : Prop :=
  ∀ c ∈ cs, isSpace c

/-- Texts of one kind with white space on both sides. -/
def Padded (P : List Char → Prop) (cs : List Char) : Prop :=
  ∃ before body after, Space before ∧ P body ∧ Space after ∧ cs = before ++ body ++ after

/-! ### Strings -/

/-- The ways to write one character of a string: as itself, as an escape, as the code of a
character, or as the codes of two surrogates. -/
inductive CharWritten : Char → List Char → Prop
  | plain {c : Char} (hcontrol : 32 ≤ c.toNat) (hquote : c ≠ '"') (hslash : c ≠ '\\') :
    CharWritten c [c]
  | escape {e c : Char} (h : escaped? e = some c) : CharWritten c ['\\', e]
  | code {n : Nat} {a b c d : Char} (hcode : hexCode? a b c d = some n)
    (hlow : isLowSurrogate n = false) (hhigh : isHighSurrogate n = false) :
    CharWritten (Char.ofNat n) ['\\', 'u', a, b, c, d]
  | pair {n m : Nat} {a b c d e f g h : Char} (hfirst : hexCode? a b c d = some n)
    (hhigh : isHighSurrogate n) (hsecond : hexCode? e f g h = some m) (hlow : isLowSurrogate m) :
    CharWritten (joinSurrogates n m) ['\\', 'u', a, b, c, d, '\\', 'u', e, f, g, h]

inductive CharsWritten : List Char → List Char → Prop
  | nil : CharsWritten [] []
  | cons {c : Char} {cs text texts : List Char} (hc : CharWritten c text)
    (hcs : CharsWritten cs texts) : CharsWritten (c :: cs) (text ++ texts)

def QuotedWritten : Quoted → List Char → Prop
  | .good s => fun cs => ∃ inner, CharsWritten s.toList inner ∧ cs = '"' :: inner ++ ['"']
  | .bad .. => fun _ => False

/-! ### Numbers -/

def FractionWritten (fraction cs : List Char) : Prop :=
  fraction = [] ∧ cs = [] ∨ fraction ≠ [] ∧ cs = '.' :: fraction

def ExponentWritten : Option ℤ → List Char → Prop
  | none => fun cs => cs = []
  | some e => fun cs => ∃ mark sign digits, (mark = 'e' ∨ mark = 'E') ∧ IsSign sign ∧
      digits ≠ [] ∧ (∀ c ∈ digits, c.isDigit) ∧ e = signedValue sign digits ∧
      cs = mark :: sign ++ digits

/-- A number behind its sign. No other whole part than zero starts with a zero. -/
structure MagnitudeWritten (n : Numeral) (cs : List Char) : Prop where
  whole : ∀ c ∈ n.whole, c.isDigit
  whole_ne_nil : n.whole ≠ []
  leading : n.whole = ['0'] ∨ n.whole.head? ≠ some '0'
  fraction : ∀ c ∈ n.fraction, c.isDigit
  parts : ∃ fraction exponent, FractionWritten n.fraction fraction ∧
    ExponentWritten n.exponent exponent ∧ cs = n.whole ++ fraction ++ exponent

def NumberWritten (n : Numeral) (cs : List Char) : Prop :=
  ∃ body, MagnitudeWritten n body ∧ cs = (if n.negative then ['-'] else []) ++ body

/-! ### Values -/

mutual

def Written : Json → List Char → Prop
  | .absent | .broken .. => fun _ => False
  | .null => fun cs => cs = ['n', 'u', 'l', 'l']
  | .bool true => fun cs => cs = ['t', 'r', 'u', 'e']
  | .bool false => fun cs => cs = ['f', 'a', 'l', 's', 'e']
  | .number n => NumberWritten n
  | .text q => QuotedWritten q
  | .array items => fun cs => ∃ body, ItemsWritten items body ∧ cs = '[' :: body
  | .object members => fun cs => ∃ body, MembersWritten members body ∧ cs = '{' :: body

/-- An array behind its opening bracket. -/
def ItemsWritten : Items → List Char → Prop
  | .stop .closed => fun cs => ∃ space, Space space ∧ cs = space ++ [']']
  | .stop _ => fun _ => False
  | .item v rest => fun cs => ∃ body tail, Padded (Written v) body ∧
      MoreItemsWritten rest tail ∧ cs = body ++ tail

/-- An array behind one of its items. -/
def MoreItemsWritten : Items → List Char → Prop
  | .stop .closed => fun cs => cs = [']']
  | .stop _ => fun _ => False
  | .item v rest => fun cs => ∃ body tail, Padded (Written v) body ∧
      MoreItemsWritten rest tail ∧ cs = ',' :: body ++ tail

/-- An object behind its opening brace. -/
def MembersWritten : Members → List Char → Prop
  | .stop .closed => fun cs => ∃ space, Space space ∧ cs = space ++ ['}']
  | .stop _ | .keyOnly .. | .oddKey => fun _ => False
  | .member key v rest => fun cs => ∃ name body tail, Padded (QuotedWritten key) name ∧
      Padded (Written v) body ∧ MoreMembersWritten rest tail ∧ cs = name ++ ':' :: body ++ tail

/-- An object behind one of its members. -/
def MoreMembersWritten : Members → List Char → Prop
  | .stop .closed => fun cs => cs = ['}']
  | .stop _ | .keyOnly .. | .oddKey => fun _ => False
  | .member key v rest => fun cs => ∃ name body tail, Padded (QuotedWritten key) name ∧
      Padded (Written v) body ∧ MoreMembersWritten rest tail ∧
      cs = ',' :: name ++ ':' :: body ++ tail

end

/-- A document that holds just this value. -/
def Spells (text : String) (v : Json) : Prop :=
  Padded (Written v) text.toList

end CarrierTape.Json
