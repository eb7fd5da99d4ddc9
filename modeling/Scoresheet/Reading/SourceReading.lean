import Scoresheet.Record.Assembly
import Scoresheet.Source.Basic

/-!
# Reading one source

A source is read game by game. A malformed game gives a record of what could be read and a
diagnostic, and reading goes on behind it; a numeral that is too long to convert ends it. Where the
text of a source breaks off in a fault, the game that it breaks off in is lost: a game is known to
be complete only when the next one starts or the text comes to its proper end.
-/

namespace Scoresheet

open Text Pgn

/-- One game of a source: its record, and the diagnostic of a malformed game. -/
structure GameReading where
  record : Record
  diagnostic : Option Text
  deriving DecidableEq, Repr

/-- How the reading of a source ends. -/
inductive SourceEnd
  | complete
  /-- The source cannot be opened, or not be read to its end. -/
  | unusable (error : SourceError)
  | oversized (numeral : OversizedNumeral)
  deriving DecidableEq, Repr

/-- What reading a source gives. -/
structure SourceReading where
  games : List GameReading
  ending : SourceEnd
  deriving DecidableEq, Repr

namespace SourceReading

/-- A reading that ends before its first game. -/
def ended (ending : SourceEnd) : SourceReading := ⟨[], ending⟩

/-- A reading with a game before it. -/
def precededBy (reading : SourceReading) (game : GameReading) : SourceReading :=
  { reading with games := game :: reading.games }

/-- The end of a text that breaks off in a fault or is complete. -/
def endOf (fault : Option SourceError) : SourceEnd :=
  match fault with
  | some error => .unusable error
  | none => .complete

/-- The games of a list of lines, the first of them numbered `gameIndex`. The text breaks off in
`fault` after the lines. -/
def ofLines (path : Text) (fault : Option SourceError) (gameIndex : Nat) (lines : List Line) :
    SourceReading :=
  match _h : readGame lines with
  | none => ended (endOf fault)
  | some (t, rest) =>
    if rest.isEmpty && fault.isSome && !t.isOversized then ended (endOf fault)
    else match Record.ofTranscript path gameIndex t with
      | .error numeral => ended (.oversized numeral)
      | .ok record =>
        (ofLines path fault (gameIndex + 1) rest).precededBy
          ⟨record, diagnostic? t path gameIndex⟩
termination_by remaining lines
decreasing_by exact remaining_readGame_lt _h

end SourceReading

/-- Reads the file at a path. -/
def Source.readAt (tree : FileTree) (compression : Compression) (path : Text) : SourceReading :=
  match openAt tree compression path with
  | .error error => .ended (.unusable error)
  | .ok content =>
    .ofLines path (content.fault.map (.unreadable compression path)) 1 content.lines

end Scoresheet
