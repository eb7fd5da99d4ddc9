import Scoresheet.Source.FileTree
import Scoresheet.Source.Wildcard

/-!
# Path patterns

A path pattern is a path with wildcards in some of its names. It stands for the paths in a file
tree that agree with it name by name. What comes before the first name with a wildcard is taken
over into these paths as it is written; a slash at the end asks for directories.
-/

namespace Scoresheet

open Text

namespace Glob

/-- A path pattern: the directory to start from, as it is written, and the names below it. -/
structure Pattern where
  directory : Text
  names : List Text
  deriving DecidableEq, Repr

/-- A directory without the slashes after it, unless it consists of slashes. -/
def withoutFinalSlashes (directory : Text) : Text :=
  let stripped := (directory.reverse.dropWhile (· == '/')).reverse
  if stripped.isEmpty then directory else stripped

/-- The names below the directory of a pattern; slashes in a row count as one, and an empty name
at the end is kept. -/
def significant : List Text → List Text
  | [] => []
  | [name] => [name]
  | name :: names => if name.isEmpty then significant names else name :: significant names

/-- The parts of a path pattern. -/
def Pattern.ofText (t : Text) : Pattern :=
  let names := FileTree.namesOf t
  let before := names.takeWhile (!Wildcard.occursIn ·)
  ⟨withoutFinalSlashes (join ['/'] (before ++ [[]])),
    significant (names.dropWhile (!Wildcard.occursIn ·))⟩

/-- A name below a directory. -/
def below (directory name : Text) : Text :=
  if directory.isEmpty || directory.getLast? == some '/' then directory ++ name
  else directory ++ '/' :: name

/-- The names in a directory that a name of a pattern stands for. -/
def candidates (tree : FileTree) (directory name : Text) : List Text :=
  if Wildcard.occursIn name then (tree.namesAt directory).filter (Wildcard.standsFor name)
  else if name.isEmpty then if tree.isDirectory directory then [[]] else []
  else if tree.holds (below directory name) then [name] else []

/-- The paths below a directory that the names of a pattern stand for. -/
def expandFrom (tree : FileTree) (directory : Text) : List Text → List Text
  | [] => [directory]
  | name :: names =>
    (candidates tree directory name).flatMap fun found =>
      expandFrom tree (below directory found) names

/-- The paths that a pattern stands for. -/
def expand (tree : FileTree) (pattern : Text) : List Text :=
  let p := Pattern.ofText pattern
  expandFrom tree p.directory p.names

end Glob

end Scoresheet
