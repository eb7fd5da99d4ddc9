import Scoresheet.Text.Numeral
import Scoresheet.Text.Quoted

/-!
# File trees

The files below a working directory, as far as reading them goes. A path is resolved name by name:
`.` and an empty name stay where they are, `..` goes up, and each of them needs a directory to
stand on. Above the working directory, and from the root, nothing is known to exist.
-/

namespace Scoresheet

open Text

/-! ## Files -/

/-- What a stream of octets gives before it ends, and what is reported if it ends in a fault. -/
structure OctetStream where
  octets : List UInt8
  fault : Option Text
  deriving DecidableEq, Repr

/-- A file: its octets, and the stream into which a decompressor turns them. Decompression itself
is not the work of this library, which is why its result comes with the file. -/
structure StoredFile where
  octets : List UInt8
  unpacked : OctetStream
  deriving DecidableEq, Repr

/-- What stands under a path. -/
inductive FileNode
  | directory
  | file (content : StoredFile)
  deriving DecidableEq, Repr

/-! ## Faults -/

/-- Why a path does not lead to what was asked for. -/
inductive PathFault
  | missing
  | alreadyExists
  | notDirectory
  | isDirectory
  /-- The path holds a NUL character, with which no name can be written. -/
  | embeddedNul
  deriving DecidableEq, Repr

namespace PathFault

/-- A numbered fault of the operating system with the path that it is about. -/
def numbered (number : Nat) (wording : String) (path : Text) : Text :=
  "[Errno ".toList ++ decimal number ++ "] ".toList ++ wording.toList ++ ": ".toList ++ quoted path

/-- What is reported about a fault on a path. -/
def message (path : Text) : PathFault → Text
  | missing => numbered 2 "No such file or directory" path
  | alreadyExists => numbered 17 "File exists" path
  | notDirectory => numbered 20 "Not a directory" path
  | isDirectory => numbered 21 "Is a directory" path
  | embeddedNul => "embedded null byte".toList

end PathFault

/-! ## Trees -/

/-- Files and directories under the names that lead to them from the working directory. -/
structure FileTree where
  entries : List (List Text × FileNode)
  deriving DecidableEq, Repr

/-- A place that a path leads to. -/
inductive Place
  /-- Below the working directory, which the empty list of names stands for. -/
  | inside (names : List Text)
  /-- Outside of it. -/
  | outside
  deriving DecidableEq, Repr

namespace FileTree

/-- The working directory without any files. -/
def empty : FileTree := ⟨[]⟩

/-- What stands under a list of names. -/
def node? (t : FileTree) (names : List Text) : Option FileNode :=
  if names.isEmpty then some .directory else t.entries.lookup names

/-- Puts a file or directory into a tree, in place of what stood there. -/
def insert (t : FileTree) (names : List Text) (node : FileNode) : FileTree :=
  ⟨t.entries.filter (fun entry => entry.1 != names) ++ [(names, node)]⟩

/-- Makes directories, where nothing stands yet, of the names below `above` one after another. -/
def makeDirectories (t : FileTree) (above : List Text) : List Text → FileTree
  | [] => t
  | name :: names =>
    let here := above ++ [name]
    let t := if (t.node? here).isSome then t else t.insert here .directory
    t.makeDirectories here names

/-- Puts a file or directory into a tree together with the directories that lead to it. -/
def add (t : FileTree) (names : List Text) (node : FileNode) : FileTree :=
  (t.makeDirectories [] names.dropLast).insert names node

/-- The names in a directory. -/
def namesIn (t : FileTree) (directory : List Text) : List Text :=
  t.entries.filterMap fun entry =>
    if entry.1.dropLast == directory then entry.1.getLast? else none

/-! ## Paths -/

/-- The names that a path consists of. -/
def namesOf (path : Text) : List Text := path.splitOn '/'

/-- Whether a place is a directory. -/
def isDirectoryAt (t : FileTree) : Place → Bool
  | .outside => true
  | .inside names => t.node? names == some .directory

/-- Goes from a place to a name. -/
def step (t : FileTree) (place : Place) (name : Text) : Except PathFault Place :=
  if !t.isDirectoryAt place then .error .notDirectory
  else if name == [] || name == ['.'] then .ok place
  else if name == ['.', '.'] then
    match place with
    | .inside (n :: names) => .ok (.inside (n :: names).dropLast)
    | _ => .ok .outside
  else match place with
    | .inside names =>
      if (t.node? (names ++ [name])).isSome then .ok (.inside (names ++ [name]))
      else .error .missing
    | .outside => .error .missing

/-- The place that a path leads to. -/
def locate (t : FileTree) (path : Text) : Except PathFault Place :=
  if path.contains '\x00' then .error .embeddedNul
  else if path.isEmpty then .error .missing
  else (namesOf path).foldlM t.step (if path.head? == some '/' then .outside else .inside [])

/-- Whether a path leads to anything. -/
def holds (t : FileTree) (path : Text) : Bool := (t.locate path).toOption.isSome

/-- Whether a path leads to a directory. -/
def isDirectory (t : FileTree) (path : Text) : Bool := (t.locate path).toOption.any t.isDirectoryAt

/-- The names in the directory that a path leads to; none if it leads to no directory. The empty
path stands for the working directory. -/
def namesAt (t : FileTree) (path : Text) : List Text :=
  match if path.isEmpty then .ok (.inside []) else t.locate path with
  | .ok (.inside names) => if t.isDirectoryAt (.inside names) then t.namesIn names else []
  | _ => []

/-- The file that a path leads to. -/
def fileAt (t : FileTree) (path : Text) : Except PathFault StoredFile := do
  match ← t.locate path with
  | .outside => .error .isDirectory
  | .inside names => match t.node? names with
    | some (.file content) => .ok content
    | some .directory => .error .isDirectory
    | none => .error .missing

end FileTree

end Scoresheet
