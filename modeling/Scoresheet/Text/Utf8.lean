import Scoresheet.Text.Basic

/-!
# UTF-8

Octets as text. A sequence of octets that is no character gives one `U+FFFD` for each of its
maximal parts that begin a character, and one for each octet that begins none. A byte order mark
is a character like any other.

Each line of a file may end with a carriage return, a line feed or both; `unifyNewlines` makes a
line feed of each of them.
-/

namespace Scoresheet.Text

/-! ## Decoding -/

/-- A character of which some octets have been read. -/
structure PartialChar where
  /-- The bits read so far. -/
  bits : Nat
  /-- The number of octets that come after the next one. -/
  more : Nat
  /-- The least next octet. -/
  low : UInt8
  /-- The greatest next octet. -/
  high : UInt8
  deriving DecidableEq, Repr

/-- What the first octet of a character says. -/
inductive LeadOctet
  | complete (c : Char)
  | begins (p : PartialChar)
  | invalid
  deriving DecidableEq, Repr

/-- Reads the first octet of a character. Some first octets narrow the range of the second, which
leaves out overlong forms, surrogates and numbers above `U+10FFFF`. -/
def LeadOctet.ofOctet (b : UInt8) : LeadOctet :=
  let n := b.toNat
  if n < 0x80 then .complete (Char.ofNat n)
  else if n < 0xC2 then .invalid
  else if n < 0xE0 then .begins ⟨n - 0xC0, 0, 0x80, 0xBF⟩
  else if n = 0xE0 then .begins ⟨0, 1, 0xA0, 0xBF⟩
  else if n = 0xED then .begins ⟨0xD, 1, 0x80, 0x9F⟩
  else if n < 0xF0 then .begins ⟨n - 0xE0, 1, 0x80, 0xBF⟩
  else if n = 0xF0 then .begins ⟨0, 2, 0x90, 0xBF⟩
  else if n < 0xF4 then .begins ⟨n - 0xF0, 2, 0x80, 0xBF⟩
  else if n = 0xF4 then .begins ⟨4, 2, 0x80, 0x8F⟩
  else .invalid

/-- The character that stands for octets that are no character. -/
def replacement : Char := '\uFFFD'

/-- Decodes octets, given the character in progress and what stands for one that they break off
in. -/
def decodeFrom (brokenOff : Text) (p : Option PartialChar) : List UInt8 → Text
  | [] => if p.isSome then brokenOff else []
  | b :: bs =>
    let continued : Option (Text × Option PartialChar) := p.bind fun p =>
      let bits := 64 * p.bits + b.toNat % 64
      if p.low ≤ b && b ≤ p.high then
        match p.more with
        | 0 => some ([Char.ofNat bits], none)
        | more + 1 => some ([], some ⟨bits, more, 0x80, 0xBF⟩)
      else none
    match continued with
    | some (text, p) => text ++ decodeFrom brokenOff p bs
    | none =>
      let cutOff := if p.isSome then [replacement] else []
      cutOff ++ match LeadOctet.ofOctet b with
        | .complete c => c :: decodeFrom brokenOff none bs
        | .begins p => decodeFrom brokenOff (some p) bs
        | .invalid => replacement :: decodeFrom brokenOff none bs

/-- The text of a list of octets. -/
def decodeUtf8 (octets : List UInt8) : Text := decodeFrom [replacement] none octets

/-- The text of octets that others may follow: a character that has only begun is left out. -/
def decodeUtf8SoFar (octets : List UInt8) : Text := decodeFrom [] none octets

/-- The octets of a text. -/
def encodeUtf8 (t : Text) : List UInt8 := t.flatMap String.utf8EncodeChar

/-! ## Line ends -/

/-- The text with each line end as one line feed. -/
def unifyNewlines : Text → Text
  | '\r' :: '\n' :: t => '\n' :: unifyNewlines t
  | '\r' :: t => '\n' :: unifyNewlines t
  | c :: t => c :: unifyNewlines t
  | [] => []

/-- The text without a carriage return at its end, which may be the first half of a line end. -/
def holdBackReturn (t : Text) : Text := if t.getLast? = some '\r' then t.dropLast else t

/-- The lines of a text that others may follow: those that are known to have ended. -/
def endedLines (t : Text) : List Line :=
  (lines (unifyNewlines (holdBackReturn t))).filter fun line => line.getLast? == some '\n'

end Scoresheet.Text
