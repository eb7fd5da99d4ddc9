import Scoresheet.Text.Case
import Scoresheet.Text.Numeral
import Scoresheet.Text.Quoted

/-!
# Settings

What a run is to do is said by variables of its environment. A variable of white space only counts
as absent, except for the names of the tables, which are taken as they are. Numbers that make no
sense or are less than one give way to the default.
-/

namespace Scoresheet

open Text

/-- The variables of an environment with their values. -/
abbrev Environment := List (Text × Text)

namespace Environment

/-- The value of a variable. -/
def value? (env : Environment) (name : String) : Option Text := env.lookup name.toList

/-- The value of a variable, if it says anything. -/
def given? (env : Environment) (name : String) : Option Text :=
  (env.value? name).filter (!isBlankText ·)

/-- A positive number, or the default. -/
def positive (env : Environment) (name : String) (default : Nat) : Nat :=
  match (env.value? name).bind readInteger? with
  | some n => if 1 ≤ n then n.toNat else default
  | none => default

/-- Whether a variable says yes. -/
def flag (env : Environment) (name : String) : Bool :=
  let word := lower (trim ((env.value? name).getD []))
  [['1'], "true".toList, "yes".toList].contains word

end Environment

/-! ## Databases -/

/-- A variable that has to be given. -/
structure MissingVariable where
  name : Text
  deriving DecidableEq, Repr

def MissingVariable.message (e : MissingVariable) : Text := quoted e.name

/-- The value of a variable that has to be given. -/
def Environment.require (env : Environment) (name : String) : Except MissingVariable Text :=
  match env.value? name with
  | some value => .ok value
  | none => .error ⟨name.toList⟩

/-- The address of a database server for a user with a password. The server is the local one unless
a host is given. -/
def serverUrl (credentials : Environment) : Except MissingVariable Text := do
  let user ← credentials.require "PGUSER"
  let password ← credentials.require "PGPASSWORD"
  let database ← credentials.require "PGDATABASE"
  let host := (credentials.value? "PGHOST").getD "localhost".toList
  let service := (credentials.value? "PGPORT").getD "5432".toList
  return "postgresql+psycopg2://".toList ++ user ++ ':' :: password ++ '@' :: host
    ++ ':' :: service ++ '/' :: database

/-- The address of the database in a local file. -/
def localDatabase : Text := "sqlite:///pgnshift.db".toList

/-- The variables among an environment's that say how to reach a database server. -/
def credentials (env : Environment) : Environment :=
  ["PGUSER", "PGPASSWORD", "PGDATABASE", "PGHOST", "PGPORT"].filterMap fun name =>
    (env.given? name).map (name.toList, ·)

/-- The address of the database: the one that is given, else that of a server if all that is
needed to reach one is given, else that of a local file. -/
def databaseUrl (env : Environment) : Text :=
  match env.given? "DATABASE_URL" with
  | some url => url
  | none => match serverUrl (credentials env) with
    | .ok url => url
    | .error _ => localDatabase

/-! ## Settings -/

/-- What a run is to do. -/
structure Settings where
  databaseUrl : Text
  /-- The path or pattern of the sources. -/
  pgnPath : Option Text
  compression : Option Text
  /-- The number of sources that are read at the same time. -/
  maxWorkers : Nat
  /-- The number of records of one source that may wait to be taken. -/
  bufferGames : Nat
  /-- The number of rows that are inserted at a time. -/
  batchSize : Nat
  tableName : Text
  lineageTableName : Text
  /-- Database statements are shown. -/
  echoSql : Bool
  deriving DecidableEq, Repr

/-- The settings that an environment gives. -/
def Settings.ofEnvironment (env : Environment) : Settings where
  databaseUrl := Scoresheet.databaseUrl env
  pgnPath := env.given? "PGN_PATH"
  compression := env.given? "PGN_COMPRESSION"
  maxWorkers := env.positive "PGN_MAX_WORKERS" 1
  bufferGames := env.positive "PGN_BUFFER_GAMES" 16
  batchSize := env.positive "PGN_BATCH_SIZE" 500
  tableName := (env.value? "PGN_TABLE").getD "pgn_games".toList
  lineageTableName := (env.value? "PGN_LINEAGE_TABLE").getD "pgn_game_lineage".toList
  echoSql := env.flag "PGN_ECHO_SQL"

end Scoresheet
