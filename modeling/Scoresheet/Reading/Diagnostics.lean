import Scoresheet.Record.Basic
import Scoresheet.Text.Numeral

/-!
# Diagnostics of a read

A read counts games and warnings. Whoever reads a source counts into a `Tally` of its own, which is
added to the totals when the source is done with; warnings are logged as they come.
-/

namespace Scoresheet

open Text

/-! ## Counting -/

/-- What was counted. -/
structure Tally where
  games : Nat
  /-- The games whose record notes an error. -/
  gamesWithErrors : Nat
  sourcesSkipped : Nat
  warnings : Nat
  deriving DecidableEq, Repr

namespace Tally

/-- Nothing counted yet. -/
def zero : Tally := ⟨0, 0, 0, 0⟩

/-- Two tallies taken together. -/
def add (a b : Tally) : Tally :=
  ⟨a.games + b.games, a.gamesWithErrors + b.gamesWithErrors,
    a.sourcesSkipped + b.sourcesSkipped, a.warnings + b.warnings⟩

/-- Counts a game. -/
def countGame (t : Tally) (r : Record) : Tally :=
  { t with
    games := t.games + 1
    gamesWithErrors := t.gamesWithErrors + if r.parseError.any (!·.isEmpty) then 1 else 0 }

end Tally

/-! ## Warnings -/

/-- A value that a message takes in. -/
inductive MessagePart
  | text (t : Text)
  | number (n : Int)
  deriving DecidableEq, Repr

def MessagePart.toText : MessagePart → Text
  | text t => t
  | number n => decimalInt n

/-- Fills the places `%s` and `%d` of a message in turn; `%%` is a percent sign. -/
def fillPlaces : Text → List MessagePart → Text
  | '%' :: '%' :: t, parts => '%' :: fillPlaces t parts
  | '%' :: c :: t, part :: parts =>
    if c = 's' || c = 'd' then part.toText ++ fillPlaces t parts
    else '%' :: fillPlaces (c :: t) (part :: parts)
  | c :: t, parts => c :: fillPlaces t parts
  | [], _ => []
termination_by t => t.length

/-- A message with values put in; without values it stays as it is. -/
def messageOf (template : Text) (parts : List MessagePart) : Text :=
  if parts.isEmpty then template else fillPlaces template parts

/-- The totals of a read and its warnings in the order in which they came. -/
structure Diagnostics where
  totals : Tally
  log : List Text
  deriving DecidableEq, Repr

namespace Diagnostics

/-- Diagnostics before anything was read. -/
def start : Diagnostics := ⟨.zero, []⟩

/-- Logs a warning and counts it. -/
def warn (d : Diagnostics) (t : Tally) (message : Text) : Diagnostics × Tally :=
  ({ d with log := d.log ++ [message] }, { t with warnings := t.warnings + 1 })

/-- Warns of a malformed game. -/
def gameFailed (d : Diagnostics) (t : Tally) (diagnostic : Text) : Diagnostics × Tally :=
  d.warn t diagnostic

/-- Warns of a source that is passed over, and counts it. -/
def sourceSkipped (d : Diagnostics) (t : Tally) (path message : Text) : Diagnostics × Tally :=
  d.warn { t with sourcesSkipped := t.sourcesSkipped + 1 }
    ("Skipping source '".toList ++ path ++ "': ".toList ++ message)

/-- Adds a tally to the totals. -/
def merge (d : Diagnostics) (t : Tally) : Diagnostics := { d with totals := d.totals.add t }

end Diagnostics

end Scoresheet
