import Scoresheet.Chess.Move

/-!
# From move texts to moves

A move text names a move if exactly one legal move fits it. `Position.resolve?` finds that move;
`Position.resolveSan?` does so for what the text says, so two spellings of one move text always
name the same move. Check marks, capture signs and hyphens are not compared with the position.

A text without an officer's letter names a pawn move, unless it gives both file and rank of the
source: then it may be a move of any piece, and castling may be written as the king's move to its
target or onto its own rook.
-/

namespace Scoresheet.Chess

namespace Position

/-- The wing of a castling written as a move of the king. -/
def castlingWing? (p : Position) (source target : Square) : Option Wing :=
  if source = kingHome p.turn && p.get source == some ⟨p.turn, .officer .king⟩ then
    [Wing.kingside, .queenside].find? fun w =>
      target == kingCastled p.turn w || target == rookHome p.turn w
  else none

/-- The move from a given square that a move text names. -/
def resolveFrom? (p : Position) (source target : Square) (promotion : Option Officer) :
    Option Move :=
  let move : Move := match promotion, p.castlingWing? source target with
    | none, some wing => .castle wing
    | _, _ => .step source target promotion
  if p.isLegal move then some move else none

/-- The kind of piece on a square fits the officer that a move text names. Without an officer the
move is a pawn's, along the target's file unless the text gives the file. -/
def fitsKind (p : Position) (m : MoveText) (source : Square) : Bool :=
  match m.officer with
  | some o => p.get source == some ⟨p.turn, .officer o⟩
  | none => p.get source == some ⟨p.turn, .pawn⟩
      && (m.sourceFile.isSome || source.file == m.target.file)

/-- A square that fits what a move text says about its source, and from which the move is legal. -/
def fits (p : Position) (m : MoveText) (source : Square) : Bool :=
  m.sourceFile.all (· == source.file) && m.sourceRank.all (· == source.rank)
    && p.fitsKind m source && p.isLegal (.step source m.target m.promotion)

/-- The one element of a list of one. -/
def theOnly? {α : Type} : List α → Option α
  | [a] => some a
  | _ => none

/-- The move that a move text other than castling names. -/
def resolveMoveText? (p : Position) (m : MoveText) : Option Move :=
  match m.officer, m.sourceFile, m.sourceRank with
  | none, some f, some r => p.resolveFrom? ⟨f, r⟩ m.target m.promotion
  | _, _, _ =>
    (theOnly? (Square.all.filter (p.fits m))).map fun s => .step s m.target m.promotion

/-- The move that a move text names. -/
def resolveSan? (p : Position) : San → Option Move
  | .castling wing _ => if p.isLegal (.castle wing) then some (.castle wing) else none
  | .move m => p.resolveMoveText? m

/-- The signs of a pass. -/
def isPassText : Text → Bool
  | ['-', '-'] => true
  | ['Z', '0'] => true
  | ['0', '0', '0', '0'] => true
  | ['@', '@', '@', '@'] => true
  | _ => false

/-- The move that a text names. -/
def resolve? (p : Position) (t : Text) : Option Move :=
  match San.read? t with
  | some san => p.resolveSan? san
  | none => if isPassText t then some .pass else none

end Position

end Scoresheet.Chess
