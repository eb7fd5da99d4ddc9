import Scoresheet.Lineage
import Scoresheet.Reading.Workers
import Scoresheet.Settings
import Scoresheet.Store.Sink

/-!
# The database of games

A run has two parts. `ingest` reads the games of all sources and puts them into the table of games
batch by batch; what was inserted before an error stays. `flagSubsumed` computes the lineage of all
games in the table and replaces the lineage table by it.

`ingest` reads one source after another. `Database.Ingests` says what else can come out if the
settings allow for several workers.
-/

namespace Scoresheet

open Text

/-- A row of the lineage table. -/
structure LineageRow where
  id : Int
  movetextHash : Option Text
  plyCount : Nat
  subsumedBy : Option Int
  isExactDuplicate : Bool
  deriving DecidableEq, Repr

/-- The table of games and that of their lineage. -/
structure Database where
  games : GamesTable
  lineage : List LineageRow

/-- What an ingestion did. -/
structure IngestSummary where
  tally : Tally
  inserted : Nat
  deriving DecidableEq, Repr

/-- Why an ingestion ended early. -/
inductive IngestFailure
  | reading (failure : ReadFailure)
  | storing (number : UnstorableInteger)
  deriving DecidableEq, Repr

/-- What is reported about an ingestion that ended early. -/
def IngestFailure.message : IngestFailure → Text
  | reading failure => failure.message
  | storing number => "number too large to be stored: ".toList ++ decimalInt number.value

/-- What a computation of lineage found. -/
structure LineageSummary where
  games : Nat
  subsumed : Nat
  exactDuplicates : Nat
  deriving DecidableEq, Repr

namespace Database

/-- A database without games. -/
def empty : Database := ⟨[], []⟩

/-! ## Ingestion -/

/-- Stores the records of a read in batches. A number that cannot be stored comes before what ended
the read, for the records before it were taken when it came. -/
def storeRun (games : GamesTable) (batchSize : Int) (run : ReadRun) :
    GamesTable × Except IngestFailure IngestSummary :=
  match (Sink.start batchSize games).addAll (run.records.map GameRow.ofRecord) with
  | (sink, .error number) => (sink.table, .error (.storing number))
  | (sink, .ok ()) => match run.failure with
    | some failure => (sink.table, .error (.reading failure))
    | none => match sink.close false with
      | (sink, .error number) => (sink.table, .error (.storing number))
      | (sink, .ok ()) => (sink.table, .ok ⟨run.diagnostics.totals, sink.inserted⟩)

/-- Reads the games of a path or pattern, one source after another, and stores them. -/
def ingestFrom (db : Database) (tree : FileTree) (path : Text) (compression : Option Text)
    (batchSize : Int) : Database × Except IngestFailure IngestSummary :=
  let run := ReadRun.ofPattern tree path compression none
  let (games, result) := storeRun db.games batchSize run
  ({ db with games }, result)

/-- Reads the games that the settings name and stores them. -/
def ingest (db : Database) (settings : Settings) (tree : FileTree) :
    Database × Except IngestFailure IngestSummary :=
  match settings.pgnPath with
  | none => (db, .error (.reading (.option .noPath)))
  | some path => db.ingestFrom tree path settings.compression settings.batchSize

/-! ### Several workers -/

/-- The rows of records can be put into a sink one after another. -/
def CanAdd (games : GamesTable) (batchSize : Int) (records : List Record) : Prop :=
  ((Sink.start batchSize games).addAll (records.map GameRow.ofRecord)).2 = .ok ()

/-- The consumer of a read with workers puts each row into a sink before it takes the next record.
These are the ways in which it comes to an end. -/
inductive IsStored (games : GamesTable) (batchSize : Int) (s : ParallelRead) : Prop
  /-- It has taken the marks of all workers. -/
  | finished (hs : s.IsFinished) (hadd : CanAdd games batchSize s.toRun.records)
  /-- It has taken a failure. -/
  | failed {numeral : OversizedNumeral} (hs : s.consumer = .failed numeral)
      (hadd : CanAdd games batchSize s.toRun.records)
  /-- It could not store the last row. -/
  | refused {i : Nat} (hs : s.consumer = .closed i)
      (hbefore : CanAdd games batchSize s.toRun.records.dropLast)
      (hadd : ¬CanAdd games batchSize s.toRun.records)

/-- Stores what a read with workers has given. -/
def store (db : Database) (s : ParallelRead) (batchSize : Int) :
    Database × Except IngestFailure IngestSummary :=
  let (games, result) := storeRun db.games batchSize s.toRun
  ({ db with games }, result)

/-- What an ingestion can come to. Several sources are read side by side if the settings allow for
several workers. -/
inductive Ingests (db : Database) (settings : Settings) (tree : FileTree) :
    Database × Except IngestFailure IngestSummary → Prop
  | inTurn (h : ∀ path compression sources, settings.pgnPath = some path →
      ReadRun.findSources tree path settings.compression = .ok (compression, sources) →
      settings.maxWorkers ≤ 1 ∨ sources.length = 1) :
      Ingests db settings tree (db.ingest settings tree)
  | sideBySide {path : Text} {compression : Compression} {sources : List Source}
      {s : ParallelRead} (hpath : settings.pgnPath = some path)
      (hfound : ReadRun.findSources tree path settings.compression = .ok (compression, sources))
      (hworkers : 1 < settings.maxWorkers) (hmany : sources.length ≠ 1)
      (hs : ParallelRead.Reachable settings.maxWorkers
        (.ofSources (Source.readAt tree compression) settings.bufferGames sources) s)
      (hend : IsStored db.games settings.batchSize s) :
      Ingests db settings tree (db.store s settings.batchSize)

/-! ## Lineage -/

/-- What lineage looks at in a stored game. -/
def storedMovetext (game : StoredGame) : StoredMovetext :=
  ⟨game.id, (game.row .movetext).text?⟩

/-- The row of the lineage table for a game. -/
def lineageRow (e : LineageEntry) : LineageRow where
  id := e.id
  movetextHash := e.hash.map fun hash => decimal hash.toNat
  plyCount := e.plyCount
  subsumedBy := e.subsumedBy
  isExactDuplicate := e.isExactDuplicate

/-- Computes the lineage of all stored games. -/
def flagSubsumed (db : Database) : Database × Except OversizedNumeral LineageSummary :=
  match Lineage.compute (db.games.map storedMovetext) with
  | .error numeral => (db, .error numeral)
  | .ok entries =>
    ({ db with lineage := entries.map lineageRow },
      .ok ⟨entries.length, entries.countP (·.subsumedBy.isSome),
        entries.countP (·.isExactDuplicate)⟩)

end Database

end Scoresheet
