import Scoresheet.Mainline.Subset

/-!
# Lineage of games

Among many games some are beginnings of others, or say the same moves again. The games are put in
the order of their moves and then of their numbers; a game whose main line is a beginning of that
of its neighbour is marked as subsumed by it. Malformed games take no part.
-/

namespace Scoresheet

open Text

/-- A stored game: its number and its movetext. -/
structure StoredMovetext where
  id : Int
  movetext : Option Text
  deriving DecidableEq, Repr

/-- What is known about a game on its own. -/
structure GameSketch where
  id : Int
  movetext : Text
  /-- The moves; absent for a malformed game. -/
  sans : Option (List Text)
  hash : Option UInt64
  plyCount : Nat
  deriving DecidableEq, Repr

/-- A game's place among others. -/
structure LineageEntry extends GameSketch where
  /-- The number of the game that this one is a beginning of. -/
  subsumedBy : Option Int
  /-- That game has the same moves. -/
  isExactDuplicate : Bool
  deriving DecidableEq, Repr

namespace Lineage

/-- What is known about a game on its own; a missing movetext counts as an empty one. -/
def sketch (row : StoredMovetext) : Except OversizedNumeral GameSketch := do
  let movetext := row.movetext.getD []
  let mainline ← Mainline.ofMovetext movetext
  let hash ← movesHash movetext
  return { id := row.id, movetext, hash, plyCount := mainline.plyCount,
           sans := if mainline.failed then none else some mainline.sans }

/-- A game that takes part in the ordering, with its place among the rows. -/
structure Candidate where
  place : Nat
  id : Int
  movetext : Text
  sans : List Text
  deriving DecidableEq, Repr

/-- The games that take part in the ordering, from a place on. -/
def candidates (place : Nat) : List GameSketch → List Candidate
  | [] => []
  | s :: rest => match s.sans with
    | some sans => ⟨place, s.id, s.movetext, sans⟩ :: candidates (place + 1) rest
    | none => candidates (place + 1) rest

/-- The order of the candidates: by their moves, then by their numbers. -/
def le (a b : Candidate) : Bool :=
  decide (a.sans < b.sans) || (a.sans == b.sans && decide (a.id ≤ b.id))

/-- A game that is a beginning of another. -/
structure Link where
  place : Nat
  subsumedBy : Int
  isExactDuplicate : Bool
  deriving DecidableEq, Repr

/-- The link from a candidate to the next one in the order. -/
def link? (a b : Candidate) : Except OversizedNumeral (Option Link) :=
  (isSubset a.movetext b.movetext).map fun
    | true => some ⟨a.place, b.id, a.sans == b.sans⟩
    | false => none

/-- The links between neighbours. -/
def links : List Candidate → Except OversizedNumeral (List Link)
  | a :: b :: rest => do
    let link ← link? a b
    let more ← links (b :: rest)
    return link.toList ++ more
  | _ => .ok []

/-- Puts the links to the games they start from. -/
def attach (links : List Link) (place : Nat) : List GameSketch → List LineageEntry
  | [] => []
  | s :: rest =>
    let link := links.find? (·.place == place)
    { toGameSketch := s, subsumedBy := link.map Link.subsumedBy,
      isExactDuplicate := link.any Link.isExactDuplicate } :: attach links (place + 1) rest

/-- The lineage of a list of games, in its order. -/
def compute (rows : List StoredMovetext) : Except OversizedNumeral (List LineageEntry) := do
  let sketches ← rows.mapM sketch
  let links ← links ((candidates 0 sketches).mergeSort le)
  return attach links 0 sketches

end Lineage

end Scoresheet
