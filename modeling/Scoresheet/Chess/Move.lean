import Scoresheet.Chess.Position

/-!
# Moves

A move is a step of one piece, castling, or a pass. `Position.play` makes a move whatever it is;
`Position.isLegal` says whether a step or castling obeys the rules of chess. A pass is never
legal; move notation has signs for it all the same.
-/

namespace Scoresheet.Chess

/-- A move. The side that makes it is the side to move. -/
inductive Move
  /-- A piece goes from one square to another; a pawn may become an officer there. -/
  | step (source target : Square) (promotion : Option Officer)
  | castle (wing : Wing)
  /-- The turn goes to the opponent and nothing else happens. -/
  | pass
  deriving DecidableEq, Repr

namespace Position

/-! ## Making a move -/

/-- A pawn step to another file onto the square that a pawn has just passed over. -/
def takesEnPassant (p : Position) (source target : Square) : Bool :=
  p.get source == some ⟨p.turn, .pawn⟩ && p.passed == some target && source.file != target.file
    && (p.get target).isNone

/-- The piece that arrives when one goes to the target of a step. -/
def arriving (piece : Option Piece) (promotion : Option Officer) : Option Piece :=
  match piece, promotion with
  | some ⟨c, _⟩, some o => some ⟨c, .officer o⟩
  | piece, none => piece
  | none, some _ => none

/-- The board after a step. -/
def boardAfterStep (p : Position) (source target : Square) (promotion : Option Officer) : Board :=
  let piece := arriving (p.get source) promotion
  let board :=
    if p.takesEnPassant source target then p.board.set ⟨target.file, source.rank⟩ none else p.board
  (board.set source none).set target piece

/-- The board after castling. -/
def boardAfterCastling (p : Position) (wing : Wing) : Board :=
  let c := p.turn
  (((p.board.set (kingHome c) none).set (rookHome c wing) none).set (kingCastled c wing)
    (some ⟨c, .officer .king⟩)).set (rookCastled c wing) (some ⟨c, .officer .rook⟩)

/-- The rights after a step. A side loses a right when something leaves or arrives at the corner
of its rook, and both rights when its king moves or is captured. -/
def rightsAfterStep (p : Position) (source target : Square) : CastlingRights :=
  let kingGone (c : Color) : Bool :=
    p.get (if c = p.turn then source else target) == some ⟨c, .officer .king⟩
  .ofFn fun c w =>
    p.rights.allows c w && source != rookHome c w && target != rookHome c w && !kingGone c

/-- The rights after the side to move has castled. -/
def rightsAfterCastling (p : Position) : CastlingRights :=
  .ofFn fun c w => p.rights.allows c w && c != p.turn

/-- The square that a step passes over if it is a pawn's double step from where it started. -/
def passedBy (p : Position) (source target : Square) : Option Square :=
  if p.get source == some ⟨p.turn, .pawn⟩ && source.rank == p.turn.pawnRank
      && source.ranksTo target == 2 * p.turn.forward then
    source.offset? 0 p.turn.forward
  else none

/-- A step after which the half-moves are counted anew: a pawn moves or a piece is captured. -/
def isIrreversible (p : Position) (source target : Square) : Bool :=
  (p.get source).any (·.kind == .pawn) || p.holdsEnemy target

/-- The number of the move after the one to be made. -/
def nextMoveNumber (p : Position) : Nat :=
  match p.turn with
  | .white => p.moveNumber
  | .black => p.moveNumber + 1

/-- The position after a move. -/
def play (p : Position) : Move → Position
  | .step source target promotion =>
    { board := p.boardAfterStep source target promotion
      turn := p.turn.other
      rights := p.rightsAfterStep source target
      passed := p.passedBy source target
      halfmoves := if p.isIrreversible source target then 0 else p.halfmoves + 1
      moveNumber := p.nextMoveNumber }
  | .castle wing =>
    { board := p.boardAfterCastling wing
      turn := p.turn.other
      rights := p.rightsAfterCastling
      passed := none
      halfmoves := p.halfmoves + 1
      moveNumber := p.nextMoveNumber }
  | .pass =>
    { p with
      turn := p.turn.other
      passed := none
      halfmoves := p.halfmoves + 1
      moveNumber := p.nextMoveNumber }

/-! ## Legal moves -/

/-- The officers that a pawn may become. -/
def isPromotionPiece : Officer → Bool
  | .king => false
  | _ => true

/-- A promotion is named exactly when a pawn arrives on a last rank. -/
def promotionFits (target : Square) (promotion : Option Officer) : Bool :=
  match promotion with
  | none => !isLastRank target.rank
  | some o => isLastRank target.rank && isPromotionPiece o

/-- A pawn of the side to move may go straight ahead. Two ranks at once are open to it before it
reaches the fourth rank from its own side. -/
def pawnAdvances (p : Position) (source target : Square) : Bool :=
  source.file == target.file && (p.get target).isNone
    && (source.ranksTo target == p.turn.forward
      || (source.ranksTo target == 2 * p.turn.forward
        && (p.board.clearBetween source target)
        && (source.rank == p.turn.backRank || source.rank == p.turn.pawnRank)))

/-- A pawn of the side to move may capture. -/
def pawnCaptures (p : Position) (source target : Square) : Bool :=
  Board.pawnAttacks p.turn source target
    && (p.holdsEnemy target
      || (p.takesEnPassant source target && source.rank == p.turn.enPassantRank))

/-- A step that the way of moving of the piece allows, without regard to the own king. -/
def isPseudoLegal (p : Position) (source target : Square) (promotion : Option Officer) : Bool :=
  match p.get source with
  | none => false
  | some piece =>
    piece.color == p.turn && !p.holdsOwn target &&
      match piece.kind with
      | .pawn =>
        promotionFits target promotion
          && (p.pawnAdvances source target || p.pawnCaptures source target)
      | .officer o => promotion.isNone && p.board.officerAttacks o source target

/-- The own king is not attacked after a step; without a king every step is safe. -/
def isSafeStep (p : Position) (source target : Square) (promotion : Option Officer) : Bool :=
  match p.board.king? p.turn with
  | none => true
  | some k =>
    let king := if source = k then target else k
    !(p.boardAfterStep source target promotion).attackedBy p.turn.other king

/-- Castling with the right to it, over empty squares, and with the king neither in check nor
passing over an attacked square nor arriving on one. -/
def canCastle (p : Position) (wing : Wing) : Bool :=
  let c := p.turn
  let enemy := c.other
  p.rights.allows c wing && p.board.clearBetween (kingHome c) (rookHome c wing)
    && !p.board.attackedBy enemy (kingHome c) && !p.board.attackedBy enemy (rookCastled c wing)
    && !(p.boardAfterCastling wing).attackedBy enemy (kingCastled c wing)

/-- Whether the side to move may make a move. -/
def isLegal (p : Position) : Move → Bool
  | .step source target promotion =>
    p.isPseudoLegal source target promotion && p.isSafeStep source target promotion
  | .castle wing => p.canCastle wing
  | .pass => false

/-- The move that takes the pawn which has just moved two squares is legal for some own pawn. -/
def canTakeEnPassant (p : Position) : Bool :=
  match p.passed with
  | none => false
  | some target => Square.all.any fun source =>
      p.takesEnPassant source target && p.isLegal (.step source target none)

/-- The name of a move: its squares and a small letter for a promotion; zeros for a pass. -/
def moveName (p : Position) : Move → List Char
  | .step source target promotion =>
    source.name ++ target.name ++ promotion.toList.map fun o => o.letter.toLower
  | .castle wing => (kingHome p.turn).name ++ (kingCastled p.turn wing).name
  | .pass => ['0', '0', '0', '0']

end Position

end Scoresheet.Chess
