import Scoresheet.Chess.Attack
import Scoresheet.Chess.San

/-!
# Positions

A position is a board with the side to move, the castling rights, the square behind a pawn that
has just moved two squares, and the two move counters. Rights are kept *clean*: a right is only
there while king and rook stand on the squares on which the game began
(`CastlingRights.clean`).
-/

namespace Scoresheet.Chess

/-- The rank on which a side's officers start. -/
def Color.backRank : Color → Rank
  | .white => 0
  | .black => 7

/-- The rank on which a side's pawns start. -/
def Color.pawnRank : Color → Rank
  | .white => 1
  | .black => 6

/-- The rank from which a side's pawns capture a pawn that has just passed them. -/
def Color.enPassantRank : Color → Rank
  | .white => 4
  | .black => 3

/-- A pawn arrives on this rank only by a promotion. -/
def isLastRank (r : Rank) : Bool := r == 0 || r == 7

/-- The square on which a side's king starts. -/
def kingHome (c : Color) : Square := ⟨4, c.backRank⟩

/-- The square on which a side's rook of a wing starts. -/
def rookHome (c : Color) : Wing → Square
  | .kingside => ⟨7, c.backRank⟩
  | .queenside => ⟨0, c.backRank⟩

/-- The square on which a king arrives when it castles. -/
def kingCastled (c : Color) : Wing → Square
  | .kingside => ⟨6, c.backRank⟩
  | .queenside => ⟨2, c.backRank⟩

/-- The square on which the rook arrives when the king castles. -/
def rookCastled (c : Color) : Wing → Square
  | .kingside => ⟨5, c.backRank⟩
  | .queenside => ⟨3, c.backRank⟩

/-- The castling that each side may still do. -/
structure CastlingRights where
  whiteKingside : Bool
  whiteQueenside : Bool
  blackKingside : Bool
  blackQueenside : Bool
  deriving DecidableEq, Repr

namespace CastlingRights

/-- Every right. -/
def full : CastlingRights := ⟨true, true, true, true⟩

/-- The rights that a function allows. -/
def ofFn (f : Color → Wing → Bool) : CastlingRights :=
  ⟨f .white .kingside, f .white .queenside, f .black .kingside, f .black .queenside⟩

/-- Whether a side may still castle on a wing. -/
def allows (r : CastlingRights) : Color → Wing → Bool
  | .white, .kingside => r.whiteKingside
  | .white, .queenside => r.whiteQueenside
  | .black, .kingside => r.blackKingside
  | .black, .queenside => r.blackQueenside

@[simp] theorem allows_ofFn (f : Color → Wing → Bool) (c : Color) (w : Wing) :
    (ofFn f).allows c w = f c w := by
  cases c <;> cases w <;> rfl

theorem ext_allows {r q : CastlingRights} (h : ∀ c w, r.allows c w = q.allows c w) : r = q := by
  obtain ⟨a, b, c, d⟩ := r
  have h1 := h .white .kingside
  have h2 := h .white .queenside
  have h3 := h .black .kingside
  have h4 := h .black .queenside
  simp only [allows] at h1 h2 h3 h4
  simp [h1, h2, h3, h4]

/-- King and rook of a castling stand where they started. -/
def standsReady (b : Board) (c : Color) (w : Wing) : Bool :=
  b.get (kingHome c) == some ⟨c, .officer .king⟩ && b.get (rookHome c w) == some ⟨c, .officer .rook⟩

/-- The rights whose king and rook stand where they started. -/
def clean (b : Board) (r : CastlingRights) : CastlingRights :=
  ofFn fun c w => r.allows c w && standsReady b c w

end CastlingRights

/-- A position of a game. -/
structure Position where
  board : Board
  turn : Color
  rights : CastlingRights
  /-- The square that a pawn has just passed over. -/
  passed : Option Square
  /-- Half-moves since a pawn moved or a piece was captured. -/
  halfmoves : Nat
  /-- The number of the move to be made, counted from one. -/
  moveNumber : Nat
  deriving DecidableEq

namespace Position

/-- The position in which games start. -/
def initial : Position := ⟨Board.initial, .white, .full, none, 0, 1⟩

/-- What stands on a square. -/
def get (p : Position) (s : Square) : Option Piece := p.board.get s

/-- A piece of the side to move stands on the square. -/
def holdsOwn (p : Position) (s : Square) : Bool := (p.get s).any (·.color == p.turn)

/-- A piece of the opponent stands on the square. -/
def holdsEnemy (p : Position) (s : Square) : Bool := (p.get s).any (·.color == p.turn.other)

end Position

end Scoresheet.Chess
