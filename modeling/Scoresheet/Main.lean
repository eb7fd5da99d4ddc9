import Scoresheet.Database
import Scoresheet.Log

/-!
# Command line

Stores the games of the sources that the environment names and computes their lineage. An argument
takes the place of the path in the environment. Paths lead from the working directory. What each
part of the run did is printed; an ingestion that fails ends the run.
-/

namespace Scoresheet.CommandLine

open Text

/-! ## What is told -/

/-- The level of messages about what was done. -/
def told : Int := 20

/-- The level of messages about what went wrong. -/
def failed : Int := 40

/-- What is told about an ingestion. -/
def ingestMessages : Except IngestFailure IngestSummary → List (Int × Text)
  | .ok s => [(told, "Done. Inserted=".toList ++ decimal s.inserted
      ++ "  WithErrors=".toList ++ decimal s.tally.gamesWithErrors
      ++ "  SkippedSources=".toList ++ decimal s.tally.sourcesSkipped)]
  | .error failure => [(failed, "PGN Ingestion – failed: ".toList ++ failure.message)]

/-- What is told about a computation of lineage. -/
def lineageMessages : Except OversizedNumeral LineageSummary → List (Int × Text)
  | .ok s => [(told, "Done. Games=".toList ++ decimal s.games
      ++ "  Subsumed=".toList ++ decimal s.subsumed
      ++ "  ExactDuplicates=".toList ++ decimal s.exactDuplicates)]
  | .error numeral => [(failed, "Move Lineage – failed: ".toList ++ numeral.message)]

/-! ## Environment and files -/

/-- The names of the variables that a run looks at. -/
def variableNames : List String :=
  ["DATABASE_URL", "PGUSER", "PGPASSWORD", "PGDATABASE", "PGHOST", "PGPORT", "PGN_PATH",
    "PGN_COMPRESSION", "PGN_MAX_WORKERS", "PGN_BUFFER_GAMES", "PGN_BATCH_SIZE", "PGN_TABLE",
    "PGN_LINEAGE_TABLE", "PGN_ECHO_SQL", "CHESS_LOG"]

/-- The environment with the path of the first argument. -/
def readEnvironment (arguments : List String) : IO Environment := do
  let mut env : Environment := []
  for name in variableNames do
    if let some value := ← IO.getEnv name then
      env := env ++ [(name.toList, value.toList)]
  match arguments with
  | path :: _ => return ("PGN_PATH".toList, path.toList) :: env
  | [] => return env

/-- A file of some octets. There is no decompressor at hand. -/
def fileOf (octets : List UInt8) : FileNode :=
  .file ⟨octets, ⟨[], some "no decompressor at hand".toList⟩⟩

/-- What stands in a directory, as deep as a number of names. Files are not read yet. -/
def listFiles (directory : String) (above : List Text) :
    Nat → IO (List (List Text × FileNode))
  | 0 => return []
  | depth + 1 => do
    let mut found := []
    for entry in ← (← IO.FS.realPath directory).readDir do
      let names := above ++ [entry.fileName.toList]
      if ← entry.path.isDir then
        found := found ++ (names, .directory) :: (← listFiles entry.path.toString names depth)
      else found := found ++ [(names, fileOf [])]
    return found

/-- The working directory as far as a pattern reaches, with the contents of the files that it
stands for. -/
def readTree (pattern : Text) : IO FileTree := do
  let tree : FileTree := ⟨← listFiles "." [] (FileTree.namesOf pattern).length⟩
  let mut filled := tree
  for source in (Source.resolve tree pattern).toOption.getD [] do
    if let .ok (.inside names) := tree.locate source.path then
      unless tree.isDirectoryAt (.inside names) do
        let octets ← IO.FS.readBinFile (String.ofList source.path)
        filled := filled.insert names (fileOf octets.toList)
  return filled

/-! ## Runs -/

/-- Prints the messages that the logger passes on. -/
def tell (logger : Logger) (messages : List (Int × Text)) : IO Unit := do
  for line in logger.lines messages do
    IO.println (String.ofList line)

/-- Ingests and computes lineage; the result says whether both went well. -/
def run (arguments : List String) : IO Bool := do
  let env ← readEnvironment arguments
  let settings := Settings.ofEnvironment env
  let logger : Logger := ⟨LogLevel.ofName ((env.value? "CHESS_LOG").getD []), none⟩
  let tree ← match settings.pgnPath with
    | some path => readTree path
    | none => pure .empty
  tell logger [(told, "PGN Ingestion – started".toList)]
  let (db, ingested) := Database.empty.ingest settings tree
  tell logger (ingestMessages ingested)
  unless ingested.toOption.isSome do return false
  tell logger [(told, "PGN Ingestion – finished".toList), (told, "Move Lineage – started".toList)]
  let (_, flagged) := db.flagSubsumed
  tell logger (lineageMessages flagged)
  unless flagged.toOption.isSome do return false
  tell logger [(told, "Move Lineage – finished".toList)]
  return true

end Scoresheet.CommandLine

/-- The command line program. -/
def main (arguments : List String) : IO UInt32 :=
  return if ← Scoresheet.CommandLine.run arguments then 0 else 1
