import Scoresheet.Mainline.Replay
import Scoresheet.Text.DecimalDigit
import Scoresheet.Text.WordChar

/-!
# Beginnings of games

One movetext is contained in another if its main line is a beginning of the other's. Two ways lead
to the answer. Most texts hold nothing but numbered moves and a result; such a *clean* text is read
word by word (`cleanSans?`), and its moves are checked by playing them. All other texts are read as
game texts. `isSubset` takes the first way where it is open.
-/

namespace Scoresheet

open Text Pgn Chess

/-! ## Clean texts -/

/-- A move number: digits with one dot or three. -/
def isMoveNumber (word : Text) : Bool :=
  match cutAt '.' word with
  | (digits, some rest) =>
    !digits.isEmpty && digits.all isDigitLike && (rest == [] || rest == ['.', '.'])
  | (_, none) => false

/-- A marker of the result. -/
def isResultMarker : Text → Bool
  | ['1', '-', '0'] => true
  | ['0', '-', '1'] => true
  | ['1', '/', '2', '-', '1', '/', '2'] => true
  | ['*'] => true
  | _ => false

/-- A character of comments, variations, annotations and the like. -/
def isAnnotationChar (c : Char) : Bool :=
  ['\x7b', '\x7d', '(', ')', '$', '!', '?', ';'].contains c

/-- Castling, spelled with the letter O. -/
def isCastlingWord (word : Text) : Bool :=
  match San.readCastling? word with
  | some san => san.toText == word
  | none => false

/-- A character that may open a move other than castling. -/
def opensMove (c : Char) : Bool :=
  ['K', 'Q', 'R', 'B', 'N'].contains c || ('a' ≤ c && c ≤ 'h')

/-- A character that may stand in a move. -/
def isMoveChar (c : Char) : Bool :=
  isAsciiAlphanumeric c || ['+', '#', '=', '-'].contains c

/-- A word with the outward look of a move. -/
def looksLikeMove (word : Text) : Bool :=
  isCastlingWord word || (word.head?.any opensMove && word.all isMoveChar)

/-- Numbered moves, one at least unless there has been one, and at most one result at the end. -/
def areCleanWords (sawMove : Bool) : List Text → Bool
  | [] => sawMove
  | w :: ws =>
    if isMoveNumber w then areCleanWords sawMove ws
    else if isResultMarker w then ws.isEmpty && sawMove
    else looksLikeMove w && areCleanWords true ws

/-- A text of numbered moves and at most one result, or a blank one. -/
def isClean (movetext : Text) : Bool :=
  isBlankText movetext ||
    (!movetext.any isAnnotationChar && areCleanWords false (words movetext))

/-- The moves among words in their canonical spelling, provided that they can be made from a
position and that nothing follows a result. -/
def cleanSansFrom (p : Position) : List Text → Option (List Text)
  | [] => some []
  | w :: ws =>
    if isMoveNumber w then cleanSansFrom p ws
    else if isResultMarker w then if ws.isEmpty then some [] else none
    else if looksLikeMove w then
      match San.canonical? w with
      | none => none
      | some san => match makeMove p san with
        | .ok made => (cleanSansFrom made.position ws).map (san :: ·)
        | .error _ => none
    else none

/-- The moves of a clean text; none if one of them cannot be made. -/
def cleanSans? (movetext : Text) : Option (List Text) := cleanSansFrom .initial (words movetext)

/-! ## Comparison -/

/-- The answer for two clean texts; none where the texts have to be read as game texts. -/
def isSubsetFast (short long : Text) : Option Bool :=
  if isClean short && isClean long then
    match cleanSans? short, cleanSans? long with
    | some s, some l => some (s.isPrefixOf l)
    | _, _ => none
  else none

/-- A text without a main line: it is malformed, or it holds something but neither a move nor a
result. -/
def hasNoMainline (movetext : Text) (m : Mainline) : Bool :=
  m.failed || (!isBlankText movetext && m.sans.isEmpty && m.outcome.isNone)

/-- The answer for texts read as game texts. -/
def isSubsetByReading (short long : Text) : Except OversizedNumeral Bool := do
  let s ← Mainline.ofMovetext short
  let l ← Mainline.ofMovetext long
  return !hasNoMainline short s && !hasNoMainline long l && s.sans.isPrefixOf l.sans

/-- Whether the main line of a text is a beginning of another's. -/
def isSubset (short long : Text) : Except OversizedNumeral Bool :=
  match isSubsetFast short long with
  | some b => .ok b
  | none => isSubsetByReading short long

end Scoresheet
