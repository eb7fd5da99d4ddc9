import Scoresheet.Chess.Fen
import Scoresheet.Chess.Resolve
import Scoresheet.Chess.Zobrist
import Scoresheet.Mainline.Basic
import Scoresheet.Text.Json

/-!
# Replaying main lines

`replay` makes the moves of a main line one after another and ends before the first that names no
legal move. The fingerprint of a movetext is the hash of the position so reached, and its move
list gives the position after each move.
-/

namespace Scoresheet

open Text Pgn Chess

/-- A move text that names no legal move of a position. -/
structure IllegalMove where
  san : Text
  position : Position

/-- What is said about an illegal move. -/
def IllegalMove.message (e : IllegalMove) : Text :=
  "illegal san ".toList ++ quoted e.san ++ " in ".toList ++ e.position.strictFen

/-- A move that has been made, as it was written, and the position after it. -/
structure MoveMade where
  san : Text
  move : Move
  position : Position
  deriving DecidableEq

/-- Makes the move that a text names. -/
def makeMove (p : Position) (san : Text) : Except IllegalMove MoveMade :=
  match p.resolve? san with
  | some move => .ok ⟨san, move, p.play move⟩
  | none => .error ⟨san, p⟩

/-- Makes moves until a text names no legal move. -/
def replay (p : Position) : List Text → List MoveMade
  | [] => []
  | san :: sans => match makeMove p san with
    | .ok made => made :: replay made.position sans
    | .error _ => []

/-- The position after the last move made. -/
def lastPosition (moves : List MoveMade) : Position :=
  (moves.getLast?.map MoveMade.position).getD .initial

/-- Whether reading a game would have met its malformed place: all moves before it can be made. -/
def meetsFault (t : Transcript) : Bool :=
  t.isMalformed && (replay .initial t.sans).length == t.sans.length

/-- The hash of the position after the main line, as far as it can be played. A blank text has
none, nor has a text that is malformed before its first illegal move. -/
def movesHash (movetext : Text) : Except OversizedNumeral (Option UInt64) :=
  if isBlankText movetext then .ok none
  else (Transcript.first movetext).checked.map fun t =>
    if meetsFault t then none else some (lastPosition (replay .initial t.sans)).hash

/-- An entry of the move list: the move's number among the half-moves, its text and the position
after it. -/
def moveEntry (ply : Nat) (m : MoveMade) : Json :=
  .object [("ply".toList, .number ply), ("move".toList, .string m.san),
    ("fen".toList, .string m.position.fen), ("epd".toList, .string m.position.epd)]

/-- The entries of the moves, the first of them numbered `ply`. -/
def moveEntries (ply : Nat) : List MoveMade → List Json
  | [] => []
  | m :: ms => moveEntry ply m :: moveEntries (ply + 1) ms

/-- The moves of a movetext that can be made, at most `limit` of them. -/
def movesMade (movetext : Text) (limit : Option Int) : Except OversizedNumeral (List MoveMade) :=
  match limit with
  | none => (Transcript.first movetext).checked.map fun t => replay .initial t.sans
  | some k =>
    if k ≤ 0 then .ok []
    else (Transcript.first movetext).checked.map fun t => (replay .initial t.sans).take k.toNat

/-- The move list of a movetext, as JSON text. -/
def movesJson (movetext : Text) (limit : Option Int) : Except OversizedNumeral Text :=
  (movesMade movetext limit).map fun moves => (Json.array (moveEntries 1 moves)).toText

/-- The first four fields of a position record as they are written; none for a blank or malformed
record. -/
def fenEpd (fen : Text) : Option Text := epdOfFen? (trim fen)

end Scoresheet
