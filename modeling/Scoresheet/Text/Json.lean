import Scoresheet.Text.Quoted

/-!
# JSON texts

JSON values and their compact text. In strings only the quote, the backslash and the control
characters below the space are escaped; objects keep the order of their members.
-/

namespace Scoresheet

/-- A JSON value. -/
inductive Json
  | null
  | bool (b : Bool)
  | number (n : Nat)
  | string (t : Text)
  | array (items : List Json)
  | object (members : List (Text × Json))

namespace Json

/-- One character inside a string. -/
def escapeChar (c : Char) : Text :=
  if c = '"' || c = '\\' then ['\\', c]
  else if c = '\n' then ['\\', 'n']
  else if c = '\r' then ['\\', 'r']
  else if c = '\t' then ['\\', 't']
  else if c.toNat = 8 then ['\\', 'b']
  else if c.toNat = 12 then ['\\', 'f']
  else if c.toNat < 0x20 then '\\' :: 'u' :: Text.hex 4 c.toNat
  else [c]

/-- A text as a JSON string. -/
def stringText (t : Text) : Text := '"' :: t.flatMap escapeChar ++ ['"']

mutual

/-- The text of a value, without white space. -/
def toText : Json → Text
  | null => "null".toList
  | bool true => "true".toList
  | bool false => "false".toList
  | number n => Nat.toDigits 10 n
  | string t => stringText t
  | array items => '[' :: Text.join [','] (itemTexts items) ++ [']']
  | object members => '\x7b' :: Text.join [','] (memberTexts members) ++ ['\x7d']

/-- The texts of the items of an array. -/
def itemTexts : List Json → List Text
  | [] => []
  | item :: items => item.toText :: itemTexts items

/-- The texts of the members of an object. -/
def memberTexts : List (Text × Json) → List Text
  | [] => []
  | (name, value) :: members => (stringText name ++ ':' :: value.toText) :: memberTexts members

end

end Json

end Scoresheet
