import Scoresheet.Record.Basic

/-!
# Rows

A record as a row of a table. The columns are listed in the order of the table; all of a record but
the marker of its result has a column.

No text in a row holds a NUL character, which not every database can store: a space takes its
place, and the column in which that happened is noted in the row.
-/

namespace Scoresheet

open Text

/-! ## Columns -/

/-- A column of the table of games. -/
inductive Column
  | event
  | site
  | white
  | black
  | result
  | whiteTitle
  | blackTitle
  | whiteElo
  | blackElo
  | utcDate
  | utcTime
  | eco
  | opening
  | termination
  | timeControl
  | movetext
  | parseError
  | source
  deriving DecidableEq, Repr

namespace Column

/-- The columns in the order of the table. -/
def all : List Column :=
  [event, site, white, black, result, whiteTitle, blackTitle, whiteElo, blackElo, utcDate, utcTime,
    eco, opening, termination, timeControl, movetext, parseError, source]

theorem mem_all (c : Column) : c ∈ all := by cases c <;> decide

/-- The name of a column in the table. -/
def name : Column → Text
  | event => "Event".toList
  | site => "Site".toList
  | white => "White".toList
  | black => "Black".toList
  | result => "Result".toList
  | whiteTitle => "WhiteTitle".toList
  | blackTitle => "BlackTitle".toList
  | whiteElo => "WhiteElo".toList
  | blackElo => "BlackElo".toList
  | utcDate => "UTCDate".toList
  | utcTime => "UTCTime".toList
  | eco => "ECO".toList
  | opening => "Opening".toList
  | termination => "Termination".toList
  | timeControl => "TimeControl".toList
  | movetext => "movetext".toList
  | parseError => "parse_error".toList
  | source => "Source".toList

/-- The name under which a record shows what the column holds. -/
def fieldName : Column → Text
  | event => "event".toList
  | site => "site".toList
  | white => "white".toList
  | black => "black".toList
  | result => "result".toList
  | whiteTitle => "white_title".toList
  | blackTitle => "black_title".toList
  | whiteElo => "white_elo".toList
  | blackElo => "black_elo".toList
  | utcDate => "utc_date".toList
  | utcTime => "utc_time".toList
  | eco => "eco".toList
  | opening => "opening".toList
  | termination => "termination".toList
  | timeControl => "time_control".toList
  | movetext => "movetext".toList
  | parseError => "parse_error".toList
  | source => "source".toList

/-- Whether a column holds text. -/
def isText : Column → Bool
  | whiteElo | blackElo | utcDate | utcTime => false
  | _ => true

end Column

/-! ## Cells -/

/-- What one column of a row holds. -/
inductive Cell
  | null
  | text (t : Text)
  | integer (n : Int)
  | date (d : Date)
  /-- A time, with its offset if that is known. -/
  | time (t : LocalTime) (offset : Option Int)
  deriving DecidableEq, Repr

namespace Cell

/-- The cell of a text that may be absent. -/
def ofText : Option Text → Cell
  | some t => text t
  | none => null

/-- The cell of a number that may be absent. -/
def ofInteger : Option Int → Cell
  | some n => integer n
  | none => null

/-- The cell of a date that may be absent. -/
def ofDate : Option Date → Cell
  | some d => date d
  | none => null

/-- The cell of a time that may be absent. -/
def ofTime : Option ClockTime → Cell
  | some t => time t.toLocalTime (some t.offset)
  | none => null

/-- The text of a cell. -/
def text? : Cell → Option Text
  | text t => some t
  | _ => none

/-- Whether a cell is a text with a NUL character. -/
def holdsNul (c : Cell) : Bool := c.text?.any (·.contains '\x00')

/-- The cell with a space for each NUL character. -/
def withoutNul : Cell → Cell
  | text t => text (replaceChar '\x00' ' ' t)
  | c => c

end Cell

/-! ## Rows -/

/-- A row: the cell of each column. -/
abbrev GameRow := Column → Cell

/-- The record as a row, each text as it is. -/
def Record.toRow (r : Record) : GameRow
  | .event => .ofText r.event
  | .site => .ofText r.site
  | .white => .ofText r.white
  | .black => .ofText r.black
  | .result => .ofText r.result
  | .whiteTitle => .ofText r.whiteTitle
  | .blackTitle => .ofText r.blackTitle
  | .whiteElo => .ofInteger r.whiteElo
  | .blackElo => .ofInteger r.blackElo
  | .utcDate => .ofDate r.utcDate
  | .utcTime => .ofTime r.utcTime
  | .eco => .ofText r.eco
  | .opening => .ofText r.opening
  | .termination => .ofText r.termination
  | .timeControl => .ofText r.timeControl
  | .movetext => .text r.movetext
  | .parseError => .ofText r.parseError
  | .source => .ofText r.source

namespace GameRow

/-- The note on a column in which NUL characters were replaced. -/
def nulNote (c : Column) : Text := "Sanitized interior NUL in ".toList ++ c.name

/-- The columns in which NUL characters are replaced and noted; the column of the notes is not
among them. -/
def columnsWithNul (row : GameRow) : List Column :=
  Column.all.filter fun c => c.isText && c != .parseError && (row c).holdsNul

/-- A cell of notes with more notes after it. -/
def withNotes (cell : Cell) (notes : List Text) : Cell :=
  if notes.isEmpty then cell
  else .text (join [';', ' '] ((cell.text?.filter (!·.isEmpty)).toList ++ notes))

/-- The row without NUL characters, and with notes on where they were. -/
def sanitized (row : GameRow) : GameRow := fun c =>
  if c = .parseError then withNotes (row c).withoutNul ((columnsWithNul row).map nulNote)
  else if c.isText then (row c).withoutNul
  else row c

/-- The row that is stored for a record. -/
def ofRecord (r : Record) : GameRow := sanitized r.toRow

end GameRow

end Scoresheet
