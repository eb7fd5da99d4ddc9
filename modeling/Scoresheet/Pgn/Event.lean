import Scoresheet.Text.Numeral
import Scoresheet.Text.Quoted

/-!
# Events of a game

A game text is read as a list of events: the tag pairs, then what the main line holds. This module
names the events, the result markers, the annotation glyphs and the ways in which a game text can
be malformed.
-/

namespace Scoresheet.Pgn

/-- What a reader reports about a game, in the order of the text. -/
inductive Event
  | beginTags
  | tag (key value : Text)
  | beginMovetext
  /-- A move of the main line in its canonical spelling. -/
  | san (token : Text)
  | comment (text : Text)
  /-- The text of a comment that the end of the input cut off. -/
  | partialComment (text : Text)
  /-- A numeric annotation glyph. -/
  | nag (code : Nat)
  /-- A variation starts; what it holds is not reported. -/
  | beginVariation
  /-- The marker of the result, which ends the moves. -/
  | outcome (marker : Text)
  | endGame
  deriving DecidableEq, Repr

/-- The result that a word marks, in its standard spelling. -/
def outcomeMarker? : Text → Option Text
  | ['1', '-', '0'] => some ['1', '-', '0']
  | ['0', '-', '1'] => some ['0', '-', '1']
  | ['1', '/', '2', '-', '1', '/', '2'] => some ['1', '/', '2', '-', '1', '/', '2']
  | ['½', '-', '½'] => some ['1', '/', '2', '-', '1', '/', '2']
  | ['*'] => some ['*']
  | _ => none

/-- The code of an annotation written with exclamation and question marks. -/
def glyphCode? : Text → Option Nat
  | ['!'] => some 1
  | ['?'] => some 2
  | ['!', '!'] => some 3
  | ['?', '?'] => some 4
  | ['!', '?'] => some 5
  | ['?', '!'] => some 6
  | _ => none

/-- The part of a game in which a malformed text lies. -/
inductive Stage
  | headers
  | movetext
  deriving DecidableEq, Repr

def Stage.name : Stage → Text
  | headers => "headers".toList
  | movetext => "movetext".toList

/-- How a game text can be malformed. -/
inductive SyntaxFault
  /-- A line that opens with a bracket and holds no tag pairs. -/
  | badTagLine (line : Text)
  /-- The input ends inside a comment. -/
  | unterminatedComment
  deriving DecidableEq, Repr

namespace SyntaxFault

def stage : SyntaxFault → Stage
  | badTagLine _ => .headers
  | unterminatedComment => .movetext

def message : SyntaxFault → Text
  | badTagLine line => "invalid tag line ".toList ++ Text.quoted line
  | unterminatedComment => "unterminated comment".toList

end SyntaxFault

/-- Why the reading of a game ended without a complete game. -/
inductive ReadError
  | malformed (fault : SyntaxFault)
  | oversizedNag (numeral : Text.OversizedNumeral)
  deriving DecidableEq, Repr

end Scoresheet.Pgn
