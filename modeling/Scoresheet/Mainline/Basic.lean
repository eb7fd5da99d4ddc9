import Scoresheet.Pgn.Game

/-!
# Main lines

The main line of a movetext is the list of its moves in canonical spelling, with the marker of the
result and whether the text broke off at a malformed place. `normalize` writes a movetext anew
from its main line alone.
-/

namespace Scoresheet

open Text Pgn

namespace Pgn.Transcript

/-- The move that an event reports. -/
def san? : Event → Option Text
  | .san token => some token
  | _ => none

/-- The marker of the result that an event reports. -/
def outcome? : Event → Option Text
  | .outcome marker => some marker
  | _ => none

/-- The moves of the main line. -/
def sans (t : Transcript) : List Text := t.events.filterMap san?

/-- The marker of the result. -/
def outcome (t : Transcript) : Option Text := (t.events.filterMap outcome?).getLast?

/-- The text of a game was malformed. -/
def isMalformed (t : Transcript) : Bool :=
  match t.error with
  | some (.malformed _) => true
  | _ => false

/-- A game text without anything in it. -/
def empty : Transcript := ⟨[], none⟩

/-- The first game of a text; the empty one if the text has no game. -/
def first (t : Text) : Transcript := ((readGame (lines t)).map Prod.fst).getD empty

/-- The transcript, unless a numeral in it could not be converted. -/
def checked (t : Transcript) : Except OversizedNumeral Transcript :=
  match t.error with
  | some (.oversizedNag numeral) => .error numeral
  | _ => .ok t

end Pgn.Transcript

/-- The main line of a movetext. -/
structure Mainline where
  sans : List Text
  outcome : Option Text
  /-- The text is malformed; the moves are those before the malformed place. -/
  failed : Bool
  deriving DecidableEq, Repr

namespace Mainline

/-- The main line of a game. -/
def ofTranscript (t : Transcript) : Mainline := ⟨t.sans, t.outcome, t.isMalformed⟩

/-- The main line of the first game of a movetext. -/
def ofMovetext (movetext : Text) : Except OversizedNumeral Mainline :=
  (Transcript.first movetext).checked.map ofTranscript

/-- The number of moves; none are counted in a malformed text. -/
def plyCount (m : Mainline) : Nat := if m.failed then 0 else m.sans.length

/-! ## Writing -/

/-- A move with its number before it if it is White's; `ply` counts the moves before it. -/
def moveWord (ply : Nat) (san : Text) : Text :=
  if ply % 2 = 0 then decimal (ply / 2 + 1) ++ '.' :: ' ' :: san else san

/-- Moves with their numbers, the first of them after `ply` others. -/
def moveWords (ply : Nat) : List Text → List Text
  | [] => []
  | san :: sans => moveWord ply san :: moveWords (ply + 1) sans

/-- Moves as numbered text, such as `1. e4 e5 2. Nf3`. -/
def renderSans (sans : List Text) : Text := join [' '] (moveWords 0 sans)

/-- The main line as numbered text, with the marker of the result at its end. -/
def render (m : Mainline) : Text :=
  match m.outcome with
  | some (c :: cs) => trimLeft (renderSans m.sans ++ ' ' :: c :: cs)
  | _ => renderSans m.sans

end Mainline

/-- A movetext written anew from its main line. -/
def normalize (movetext : Text) : Except OversizedNumeral Text :=
  (Mainline.ofMovetext movetext).map Mainline.render

/-- The number of moves of a movetext's main line. -/
def plyCount (movetext : Text) : Except OversizedNumeral Nat :=
  (Mainline.ofMovetext movetext).map Mainline.plyCount

end Scoresheet
