import Scoresheet.Reading.Diagnostics
import Scoresheet.Reading.SourceReading

/-!
# Reading many sources

The sources of a path or pattern are read one after another into one list of records. A source
that was found by a pattern and cannot be read is passed over with a warning; one that was named
outright ends the read, and so does a numeral that is too long to convert. Whoever takes the
records may stop after a number of them; what comes behind is not looked at then.
-/

namespace Scoresheet

open Text

/-- Why a read ended early. -/
inductive ReadFailure
  | option (error : UnsupportedOption)
  | source (error : SourceError)
  | oversized (numeral : OversizedNumeral)
  deriving DecidableEq, Repr

/-- What is reported about a read that ended early. -/
def ReadFailure.message : ReadFailure → Text
  | option error => error.message
  | source error => error.message
  | oversized numeral => numeral.message

/-- A read: the records that were taken, what was counted and warned of, and why it ended early. -/
structure ReadRun where
  records : List Record
  diagnostics : Diagnostics
  failure : Option ReadFailure
  deriving DecidableEq, Repr

namespace ReadRun

/-- A read that gave no records. -/
def ended (d : Diagnostics) (failure : Option ReadFailure) : ReadRun := ⟨[], d, failure⟩

/-- A read with records before it. -/
def precededBy (run : ReadRun) (records : List Record) : ReadRun :=
  { run with records := records ++ run.records }

/-- Takes a game into account. -/
def note (state : Diagnostics × Tally) (game : GameReading) : Diagnostics × Tally :=
  let (d, t) := match game.diagnostic with
    | some diagnostic => state.1.gameFailed state.2 diagnostic
    | none => state
  (d, t.countGame game.record)

/-- The first records that are wanted; all of them without a limit. -/
def within {α : Type} (limit : Option Nat) (l : List α) : List α :=
  match limit with
  | some k => l.take k
  | none => l

/-- Reads sources one after another, as far as records are wanted. `read` says what a source
gives. -/
def ofSources (read : Text → SourceReading) (limit : Option Nat) (d : Diagnostics) :
    List Source → ReadRun
  | [] => ended d none
  | source :: sources =>
    let reading := read source.path
    let games := within limit reading.games
    let records := games.map GameReading.record
    let (d, tally) := games.foldl note (d, .zero)
    if limit.any (· ≤ games.length) then (ended (d.merge tally) none).precededBy records
    else
      let next (state : Diagnostics × Tally) : ReadRun :=
        (ofSources read (limit.map (· - games.length)) (state.1.merge state.2) sources).precededBy
          records
      match reading.ending with
      | .complete => next (d, tally)
      | .oversized numeral =>
        (ended (d.merge tally) (some (.oversized numeral))).precededBy records
      | .unusable error =>
        if source.explicit then (ended (d.merge tally) (some (.source error))).precededBy records
        else next (d.sourceSkipped tally source.path error.message)

/-- The sources of a path or pattern and their compression, as far as the options make sense. -/
def findSources (tree : FileTree) (pattern : Text) (compression : Option Text) :
    Except ReadFailure (Compression × List Source) := do
  let compression ← (Compression.ofOption compression).mapError .option
  let sources ← (Source.resolve tree pattern).mapError .source
  return (compression, sources)

/-- Reads the games of all sources of a path or pattern, or as many of them as are wanted. -/
def ofPattern (tree : FileTree) (pattern : Text) (compression : Option Text)
    (limit : Option Nat) : ReadRun :=
  match findSources tree pattern compression with
  | .error failure => ended .start (some failure)
  | .ok (compression, sources) =>
    ofSources (Source.readAt tree compression) limit .start sources

end ReadRun

end Scoresheet
