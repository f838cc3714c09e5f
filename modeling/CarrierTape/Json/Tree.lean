import CarrierTape.Decimal.Numeral

/-!
JSON documents as trees. A tree keeps numerals as they are written, members in
their order, and every key, also one that repeats. It also says where its text
stops being JSON: whoever reads a tree from left to right meets the first fault
of the text before anything behind it. Some faults concern only a reader that
wants the value, and not one that passes over it, so a fault may be of two kinds.
-/

namespace CarrierTape

namespace Json

/-- What is wrong with a text: it cannot go on like this, or it ends too early. -/
inductive Fault where
  | malformed
  | cutShort
deriving DecidableEq

inductive Quoted where
  | good (text : String)
  /-- A string that cannot be decoded. Passing over it may still succeed. -/
  | bad (fault : Fault) (skipFault : Option Fault)
deriving DecidableEq

/-- What stands where an array or an object goes on or ends. -/
inductive Ending where
  | closed
  | cut
  | cutAfterComma
  /-- Something that can neither go on nor end it. -/
  | stray
deriving DecidableEq

end Json

mutual

inductive Json where
  /-- The text ends where a value is expected. -/
  | absent
  /-- A value starts but goes wrong. -/
  | broken (fault skipFault : Json.Fault)
  | null
  | bool (b : Bool)
  | number (numeral : Decimal.Numeral)
  | text (quoted : Json.Quoted)
  | array (items : Json.Items)
  | object (members : Json.Members)

inductive Json.Items where
  | stop (ending : Json.Ending)
  | item (value : Json) (rest : Json.Items)

inductive Json.Members where
  | stop (ending : Json.Ending)
  | member (key : Json.Quoted) (value : Json) (rest : Json.Members)
  /-- A key without a colon. -/
  | keyOnly (key : Json.Quoted) (fault : Json.Fault)
  /-- Something that is not a string, where the first key is expected. -/
  | oddKey

end

/-- A value, and whether anything but white space follows it. -/
structure Json.Document where
  root : Json
  trailing : Bool

end CarrierTape
