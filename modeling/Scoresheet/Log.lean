import Scoresheet.Settings
import Scoresheet.Source.FileTree

/-!
# Logs

A logger passes on messages from a level upward, as lines that name the level. It writes them to a
file too if a directory for log files is given; the directory is made if it is not there.
-/

namespace Scoresheet

open Text

/-! ## Levels -/

namespace LogLevel

/-- The level from which on messages are passed on if nothing else is said. -/
def default : Int := 20

/-- The level that stands in for a logger's level of zero. -/
def fallback : Int := 30

/-- The level of a name; other names stand for the default. -/
def ofName (name : Text) : Int :=
  let levels : List (String × Int) :=
    [("error", 40), ("warn", 30), ("warning", 30), ("info", 20), ("debug", 10)]
  match levels.find? fun level => level.1.toList == lower (trim name) with
  | some (_, level) => level
  | none => default

/-- The name of a level in a line of the log. -/
def name (level : Int) : Text :=
  let names : List (Int × String) :=
    [(10, "DEBUG"), (20, "INFO"), (30, "WARNING"), (40, "ERROR"), (50, "CRITICAL")]
  match names.lookup level with
  | some name => name.toList
  | none => "Level ".toList ++ decimalInt level

end LogLevel

/-! ## Directories -/

/-- A directory that cannot be made. -/
structure DirectoryFault where
  path : Text
  fault : PathFault
  deriving DecidableEq, Repr

def DirectoryFault.message (e : DirectoryFault) : Text := e.fault.message e.path

/-- The names of a path, without those that lead nowhere. -/
def plainNames (path : Text) : List Text :=
  (FileTree.namesOf path).filter fun name => !name.isEmpty && name != ['.']

/-- The path of a list of names. -/
def pathOf (names : List Text) : Text := if names.isEmpty then ['.'] else join ['/'] names

/-- Goes down a path from the directory `here`, and gives the directory that it leads to once all
that is missing has been made. A file in the way is a fault. -/
def directoryBelow (tree : FileTree) (here : List Text) :
    List Text → Except PathFault (List Text)
  | [] => .ok here
  | name :: names =>
    if name == ['.', '.'] then directoryBelow tree here.dropLast names
    else match tree.node? (here ++ [name]) with
      | some (.file _) => .error (if names.isEmpty then .alreadyExists else .notDirectory)
      | _ => directoryBelow tree (here ++ [name]) names

/-- The directory for log files at a path. -/
def logDirectory (tree : FileTree) (path : Text) : Except DirectoryFault Text :=
  let names := plainNames path
  if path.contains '\x00' then .error ⟨path, .embeddedNul⟩
  else ((directoryBelow tree [] names).map pathOf).mapError (⟨pathOf names, ·⟩)

/-! ## Loggers -/

/-- A logger: its level, and the directory of its file if it has one. -/
structure Logger where
  level : Int
  directory : Option Text
  deriving DecidableEq, Repr

namespace Logger

/-- Sets up a logger. What is not said outright is taken from the environment. -/
def setUp (tree : FileTree) (env : Environment) (level : Option Int) (directory : Option Text) :
    Except DirectoryFault Logger := do
  let level := level.getD (LogLevel.ofName ((env.value? "CHESS_LOG").getD []))
  let path := (directory.filter (!·.isEmpty)).or
    ((env.given? "PGNSHIFT_LOG_DIR").map trim)
  match path with
  | none => return ⟨level, none⟩
  | some path => return ⟨level, some (← logDirectory tree path)⟩

/-- Whether messages of a level are passed on. -/
def passes (l : Logger) (level : Int) : Bool :=
  0 < level && (if l.level = 0 then LogLevel.fallback else l.level) ≤ level

/-- The line of a message. -/
def line (level : Int) (message : Text) : Text :=
  let name := LogLevel.name level
  name ++ List.replicate (8 - name.length) ' ' ++ " | ".toList ++ message

/-- The lines of the messages that are passed on. -/
def lines (l : Logger) (messages : List (Int × Text)) : List Text :=
  (messages.filter fun message => l.passes message.1).map fun message => line message.1 message.2

end Logger

end Scoresheet
