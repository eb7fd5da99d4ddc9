import Scoresheet.Chess.HashKeys
import Scoresheet.Chess.Position

/-!
# Position hash

The hash of a position is the exclusive or of the keys of what it holds: a key for each piece on
its square, for each castling right, for the file of a square passed over if a pawn stands ready
to capture there, and for White to move. The counters have no part in it.
-/

namespace Scoresheet.Chess

/-- A key of the hash. -/
def hashKey (i : Nat) : UInt64 := hashKeys.getD i 0

/-- The number of a piece among the piece keys. -/
def Piece.keyIndex (p : Piece) : Nat :=
  let kind := match p.kind with
    | .pawn => 0
    | .officer .knight => 1
    | .officer .bishop => 2
    | .officer .rook => 3
    | .officer .queen => 4
    | .officer .king => 5
  2 * kind + (if p.color = .white then 1 else 0)

/-- The number of a right among the keys. -/
def rightKeyIndex : Color → Wing → Nat
  | .white, .kingside => 768
  | .white, .queenside => 769
  | .black, .kingside => 770
  | .black, .queenside => 771

namespace Position

/-- The keys of the pieces. -/
def pieceKeys (b : Board) : List UInt64 :=
  Square.all.filterMap fun s => (b.get s).map fun p => hashKey (64 * p.keyIndex + s.index)

/-- The keys of the castling rights. -/
def rightKeys (r : CastlingRights) : List UInt64 :=
  [(Color.white, Wing.kingside), (.white, .queenside), (.black, .kingside), (.black, .queenside)]
    |>.filterMap fun (c, w) => if r.allows c w then some (hashKey (rightKeyIndex c w)) else none

/-- A pawn of the side to move stands beside the pawn that has just passed over `target`. The first
square of the board is never passed over. -/
def pawnStandsReady (b : Board) (turn : Color) (target : Square) : Bool :=
  target.index != 0 && [(-1 : Int), 1].any fun files =>
    (target.offset? files (-turn.forward)).any fun s => b.get s == some ⟨turn, .pawn⟩

/-- The key of the square passed over, if a pawn stands ready. -/
def passedKey (b : Board) (turn : Color) (passed : Option Square) : List UInt64 :=
  match passed with
  | none => []
  | some target =>
    if pawnStandsReady b turn target then [hashKey (772 + target.file.val)] else []

/-- The key of the side to move. -/
def turnKey : Color → List UInt64
  | .white => [hashKey 780]
  | .black => []

/-- The hash of a position. -/
def hash (p : Position) : UInt64 :=
  (pieceKeys p.board ++ rightKeys p.rights ++ passedKey p.board p.turn p.passed
    ++ turnKey p.turn).foldl (· ^^^ ·) 0

end Position

end Scoresheet.Chess
