import Scoresheet.Store.Row

/-!
# Storing rows in batches

A table keeps rows in the order in which they were inserted and numbers them from one. Of a time the
table keeps no offset. An insertion of several rows happens as a whole or not at all. It is up to
the database whether it fails (`Refusal`); a table of games has no place for a number of more than
64 bits (`GamesTable.refusesNumbers`).

A `Sink` collects rows and inserts them batch by batch. Rows whose insertion fails are gone from it.
-/

namespace Scoresheet

open Text

/-! ## Tables -/

/-- A row with its number. -/
structure StoredGame where
  id : Nat
  row : GameRow

/-- A table of games. -/
abbrev GamesTable := List StoredGame

/-- A number that has no place in a table. -/
structure UnstorableInteger where
  value : Int
  deriving DecidableEq, Repr

namespace Cell

/-- Whether a number fits into 64 bits with its sign. -/
def fits (n : Int) : Bool := -0x8000000000000000 ≤ n && n < 0x8000000000000000

/-- The number of a cell that has no place in a table. -/
def unstorable? : Cell → Option UnstorableInteger
  | .integer n => if fits n then none else some ⟨n⟩
  | _ => none

/-- What a table keeps of a cell. -/
def stored : Cell → Cell
  | .time t _ => .time t none
  | c => c

end Cell

/-- Why a database refuses to insert rows behind those of a table, if it does. -/
abbrev Refusal (ε : Type) := GamesTable → List GameRow → Option ε

variable {ε : Type}

namespace GamesTable

/-- The first number of the rows that has no place in a table. -/
def unstorable? (rows : List GameRow) : Option UnstorableInteger :=
  rows.findSome? fun row => Column.all.findSome? fun c => (row c).unstorable?

/-- Only a number without a place is refused. -/
def refusesNumbers : Refusal UnstorableInteger := fun _ rows => unstorable? rows

/-- Rows as they are stored, numbered on from `count`. -/
def numbered (count : Nat) : List GameRow → List StoredGame
  | [] => []
  | row :: rows => ⟨count + 1, fun c => (row c).stored⟩ :: numbered (count + 1) rows

/-- Inserts all of the rows, or none of them. -/
def insert (refusal? : Refusal ε) (table : GamesTable) (rows : List GameRow) :
    Except ε GamesTable :=
  match refusal? table rows with
  | some error => .error error
  | none => .ok (table ++ numbered table.length rows)

end GamesTable

/-! ## Sinks -/

/-- A sink for rows, with the table that they go to. -/
structure Sink (ε : Type := UnstorableInteger) where
  /-- The number of rows that are inserted at a time. -/
  batchSize : Nat
  /-- The rows that are still to be inserted. -/
  pending : List GameRow
  /-- The number of rows that were inserted. -/
  inserted : Nat
  table : GamesTable
  refusal? : Refusal ε

namespace Sink

/-- A sink for a table of some database. Batches hold one row at least. -/
def startWith (refusal? : Refusal ε) (batchSize : Int) (table : GamesTable) : Sink ε :=
  ⟨max 1 batchSize.toNat, [], 0, table, refusal?⟩

/-- A sink for a table of games. -/
def start (batchSize : Int) (table : GamesTable) : Sink :=
  startWith GamesTable.refusesNumbers batchSize table

/-- Inserts the pending rows, if there are any; the second component is their number or why they
were not inserted. -/
def flush (s : Sink ε) : Sink ε × Except ε Nat :=
  if s.pending.isEmpty then (s, .ok 0)
  else match s.table.insert s.refusal? s.pending with
    | .ok table =>
      ({ s with pending := [], inserted := s.inserted + s.pending.length, table },
        .ok s.pending.length)
    | .error error => ({ s with pending := [] }, .error error)

/-- Takes a row, and inserts the pending rows if they fill a batch. -/
def add (s : Sink ε) (row : GameRow) : Sink ε × Except ε Unit :=
  let s := { s with pending := s.pending ++ [row] }
  if s.batchSize ≤ s.pending.length then
    let (s, result) := s.flush
    (s, result.map fun _ => ())
  else (s, .ok ())

/-- Takes rows one after another, up to the first that leads to a failure. -/
def addAll (s : Sink ε) : List GameRow → Sink ε × Except ε Unit
  | [] => (s, .ok ())
  | row :: rows => match s.add row with
    | (s, .ok ()) => s.addAll rows
    | (s, .error error) => (s, .error error)

/-- Leaves the sink: the pending rows are inserted, unless something has gone wrong outside. -/
def close (s : Sink ε) (failed : Bool) : Sink ε × Except ε Unit :=
  if failed then (s, .ok ())
  else
    let (s, result) := s.flush
    (s, result.map fun _ => ())

end Sink

end Scoresheet
