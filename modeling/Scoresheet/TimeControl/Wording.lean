import Scoresheet.Text.DecimalDigit
import Scoresheet.Text.WordChar

/-!
# Words of informal time controls

Small readers for the words of informal time controls. Each passes over white space, takes a
numeral or a word off the text, and gives what follows; none if the text does not go on that way.
Where one word is the beginning of another the longer one is taken, since nothing that may follow
the shorter one continues the longer.

All words are in small letters; the text has to be brought into small letters before.
-/

namespace Scoresheet.TimeControl

open Text

/-! ## Numerals and words -/

/-- Takes a run of digits, of any script, off a text that starts with one. -/
def digits? (t : Text) : Option (Text × Text) :=
  let digits := t.takeWhile isDecimalDigit
  if digits.isEmpty then none else some (digits, t.dropWhile isDecimalDigit)

/-- Takes a numeral off a text, after white space. -/
def number? (t : Text) : Option (Text × Text) := digits? (trimLeft t)

/-- Takes the first of some words with which the text goes on, after white space. -/
def oneOf? (ws : List String) (t : Text) : Option Text :=
  ws.findSome? fun w => w.toList.isPrefixOf? (trimLeft t)

/-- Takes a word off a text, after white space. -/
def word? (w : String) (t : Text) : Option Text := w.toList.isPrefixOf? (trimLeft t)

/-- Takes something off a text if it is there. -/
def maybe (read : Text → Option Text) (t : Text) : Text := (read t).getD t

/-- Only white space is left. -/
def ended? (t : Text) : Option Unit := if isBlankText t then some () else none

/-- No other line follows. -/
def oneLine? (t : Text) : Option Unit := if t.dropLast.contains '\n' then none else some ()

/-- The word that was just read ends here. After a full stop that takes a word character. -/
def boundary? (afterStop : Bool) (t : Text) : Option Unit :=
  if t.head?.any isWordChar == afterStop then some () else none

/-! ## Units -/

/-- Words for minutes. -/
def minuteWords : List String := ["minutes", "minute", "mins", "min", "mns", "mn", "m"]

/-- Words for minutes, with the abbreviations that end in a full stop. -/
def minuteUnits : List String :=
  ["minutes", "minute", "mins", "min.", "min", "mns", "mn", "m.", "m"]

/-- Words for seconds. -/
def secondWords : List String :=
  ["seconds", "second", "secss", "secs", "sec", "sek", "ss", "s"]

/-- Words for seconds, with the abbreviations that end in a full stop. -/
def secondUnits : List String :=
  ["seconds", "second", "secss", "secs", "sec.", "sec", "sek", "ss", "s.", "s"]

/-- Takes a unit of seconds that ends at a word boundary. -/
def wholeSeconds? (t : Text) : Option Text :=
  match oneOf? ["sec.", "s."] t with
  | some rest => (boundary? true rest).map fun _ => rest
  | none => (oneOf? secondWords t).bind fun rest => (boundary? false rest).map fun _ => rest

/-! ## Phrases -/

/-- Takes a word for "with each move". -/
def perMove? (t : Text) : Option Text :=
  match word? "per" t with
  | some rest => word? "move" rest
  | none => oneOf? ["/move", "/mv", "/m"] t

/-- Takes a word for "with each move", before which the word "added" may stand. -/
def addedPerMove? (t : Text) : Option Text :=
  match word? "added" t with
  | some rest => if rest.head?.any isBlank then perMove? rest else none
  | none => perMove? t

/-- Takes a word for an increment. -/
def incrementWord? : Text → Option Text :=
  oneOf? ["increment", "incr", "inc", "additional", "added"]

/-- Takes "from move" and a word. -/
def fromMove? (t : Text) : Option Text := do
  let t ← word? "from" t
  let t ← word? "move" t
  let t := trimLeft t
  if t.head?.any isWordChar then some (t.dropWhile isWordChar) else none

/-- Takes the seconds of an increment with the words that may describe it, up to the end. -/
def incrementEnd? (t : Text) : Option Unit := do
  let t ← wholeSeconds? t
  let t := maybe incrementWord? t
  ended? (maybe (fun t => (fromMove? t).or (perMove? t)) t)

/-- Takes a word for one move that ends at a word boundary. -/
def singleMove? (t : Text) : Option Text :=
  (oneOf? ["move", "mv", "m"] t).bind fun rest => (boundary? false rest).map fun _ => rest

/-- A letter. -/
def isLetter (c : Char) : Bool := isWordChar c && !isDecimalDigit c && c != '_'

/-- Takes a heading of letters and white space that a colon ends. -/
def heading? (t : Text) : Option Text :=
  match t.takeWhile (fun c => isLetter c || isBlank c),
    t.dropWhile (fun c => isLetter c || isBlank c) with
  | _ :: _, ':' :: rest => some rest
  | _, _ => none

end Scoresheet.TimeControl
