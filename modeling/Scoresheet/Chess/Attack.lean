import Scoresheet.Chess.Board

/-!
# Attacks

A piece attacks the squares on which it could capture. Bishops, rooks and queens attack along a
line up to the first piece on it; every other attack depends on the distance alone.
-/

namespace Scoresheet.Chess

/-- The way a pawn goes: up the board for White, down for Black. -/
def Color.forward : Color → Int
  | .white => 1
  | .black => -1

namespace Square

/-- The number of files from one square to another, negative to the left. -/
def filesTo (s t : Square) : Int := (t.file.val : Int) - s.file.val

/-- The number of ranks from one square to another, negative downwards. -/
def ranksTo (s t : Square) : Int := (t.rank.val : Int) - s.rank.val

/-- Two squares of one file or one rank. -/
def onRookLine (s t : Square) : Bool := (s.filesTo t == 0 || s.ranksTo t == 0) && s != t

/-- Two squares of one diagonal. -/
def onBishopLine (s t : Square) : Bool :=
  (s.filesTo t).natAbs == (s.ranksTo t).natAbs && s != t

/-- The squares between two squares of one line, neither of them included. -/
def between (s t : Square) : List Square :=
  let files := s.filesTo t
  let ranks := s.ranksTo t
  let distance := max files.natAbs ranks.natAbs
  (List.range (distance - 1)).filterMap fun (i : Nat) =>
    s.offset? (files.sign * (i + 1)) (ranks.sign * (i + 1))

end Square

namespace Board

/-- No piece stands between two squares of one line. -/
def clearBetween (b : Board) (s t : Square) : Bool :=
  (s.between t).all fun q => (b.get q).isNone

/-- Whether a pawn of a side on `s` attacks `t`. -/
def pawnAttacks (c : Color) (s t : Square) : Bool :=
  (s.filesTo t).natAbs == 1 && s.ranksTo t == c.forward

/-- Whether an officer on `s` attacks `t`. -/
def officerAttacks (b : Board) (o : Officer) (s t : Square) : Bool :=
  let files := (s.filesTo t).natAbs
  let ranks := (s.ranksTo t).natAbs
  match o with
  | .knight => (files == 1 && ranks == 2) || (files == 2 && ranks == 1)
  | .bishop => s.onBishopLine t && b.clearBetween s t
  | .rook => s.onRookLine t && b.clearBetween s t
  | .queen => (s.onBishopLine t || s.onRookLine t) && b.clearBetween s t
  | .king => files ≤ 1 && ranks ≤ 1 && s != t

/-- Whether a piece on `s` attacks `t`. -/
def pieceAttacks (b : Board) (p : Piece) (s t : Square) : Bool :=
  match p.kind with
  | .pawn => pawnAttacks p.color s t
  | .officer o => b.officerAttacks o s t

/-- Whether some piece of a side attacks a square. -/
def attackedBy (b : Board) (c : Color) (t : Square) : Bool :=
  Square.all.any fun s => match b.get s with
    | some p => p.color == c && b.pieceAttacks p s t
    | none => false

/-- The square of a side's king: the last one, should there be several. -/
def king? (b : Board) (c : Color) : Option Square :=
  Square.all.reverse.find? fun s => b.get s == some ⟨c, .officer .king⟩

end Board

end Scoresheet.Chess
