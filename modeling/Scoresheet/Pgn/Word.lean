import Scoresheet.Chess.San
import Scoresheet.Pgn.Event

/-!
# Words of the movetext

A word of the movetext is a numeric annotation glyph (`$7`), an annotation in punctuation (`!?`), a
move with or without such an annotation, or one of these behind a move number glued to it
(`12...Nf6`). Any other word is passed over.
-/

namespace Scoresheet.Pgn

open Text Scoresheet.Chess

/-- A character of an annotation in punctuation. -/
def isGlyphChar (c : Char) : Bool := c == '!' || c == '?'

/-- A word without the annotation at its end, and that annotation. -/
def splitGlyph (word : Text) : Text × Text :=
  ((word.reverse.dropWhile isGlyphChar).reverse, (word.reverse.takeWhile isGlyphChar).reverse)

/-- A word without the digits at its start and the dots after them. -/
def dropMoveNumber (word : Text) : Text :=
  (word.dropWhile isDecimalDigit).dropWhile (· == '.')

theorem length_dropMoveNumber_le (word : Text) : (dropMoveNumber word).length ≤ word.length :=
  Nat.le_trans (List.dropWhile_suffix _).length_le (List.dropWhile_suffix _).length_le

theorem length_dropMoveNumber_lt {c : Char} (h : isDecimalDigit c) (word : Text) :
    (dropMoveNumber (c :: word)).length < (c :: word).length := by
  have : dropMoveNumber (c :: word) = dropMoveNumber word := by simp [dropMoveNumber, h]
  have hle := length_dropMoveNumber_le word
  rw [this, List.length_cons]
  omega

/-- The events of a move that may end in an annotation; none if the word is no move. -/
def moveEvents? (word : Text) : Option (List Event) :=
  let (body, glyph) := splitGlyph word
  (San.canonical? body).map fun san => .san san :: (glyphCode? glyph).toList.map .nag

/-- The events of one word of the main line. Every move number glued to its front takes a call for
what stands behind it; here any number of these calls may be nested. -/
def wordEvents (word : Text) : Except OversizedNumeral (List Event) :=
  match word with
  | [] => .ok []
  | c :: cs =>
    if c = '$' then
      if isNumeral cs then (readNumeral cs).map fun n => [.nag n] else .ok []
    else match glyphCode? (c :: cs) with
      | some code => .ok [.nag code]
      | none => match moveEvents? (c :: cs) with
        | some events => .ok events
        | none => if isDecimalDigit c then wordEvents (dropMoveNumber (c :: cs)) else .ok []
termination_by word.length
decreasing_by exact length_dropMoveNumber_lt ‹_› cs

end Scoresheet.Pgn
