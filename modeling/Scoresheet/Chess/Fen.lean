import Scoresheet.Chess.Move
import Scoresheet.Text.Numeral
import Scoresheet.Text.Quoted

/-!
# Position records

A position is written in a line of six fields: the board rank by rank from the eighth down, the
side to move, the castling rights, the square passed over, and the two counters. The first four
fields alone identify a position up to its counters (`Position.epd`).

`Position.ofFen` reads such a line; fields that are missing at its end take the values of the
start of a game. It checks the fields and not the sense of the position.
-/

namespace Scoresheet.Chess

open Text

/-! ## Writing -/

/-- The digit for a run of empty squares; nothing for no square. -/
def emptyRun (n : Nat) : Text := if n = 0 then [] else decimal n

/-- One rank, given the number of empty squares just before it. -/
def rankText (run : Nat) : List (Option Piece) → Text
  | [] => emptyRun run
  | none :: cells => rankText (run + 1) cells
  | some p :: cells => emptyRun run ++ p.letter :: rankText 0 cells

namespace Board

/-- What stands on a rank, from the `a` file on. -/
def rankCells (b : Board) (r : Rank) : List (Option Piece) :=
  (List.finRange 8).map fun f => b.get ⟨f, r⟩

/-- The board field. -/
def toText (b : Board) : Text :=
  join ['/'] ((List.finRange 8).reverse.map fun r => rankText 0 (b.rankCells r))

end Board

def Color.letter : Color → Char
  | .white => 'w'
  | .black => 'b'

/-- The castling field. -/
def CastlingRights.toText (r : CastlingRights) : Text :=
  let letters := (if r.whiteKingside then ['K'] else []) ++ (if r.whiteQueenside then ['Q'] else [])
    ++ (if r.blackKingside then ['k'] else []) ++ (if r.blackQueenside then ['q'] else [])
  if letters.isEmpty then ['-'] else letters

/-- The field of a square that may be absent. -/
def squareText : Option Square → Text
  | none => ['-']
  | some s => s.name

namespace Position

/-- The first four fields, with a given square in the fourth. -/
def epdShowing (p : Position) (passed : Option Square) : Text :=
  join [' '] [p.board.toText, [p.turn.letter], p.rights.toText, squareText passed]

/-- The two counters. -/
def counters (p : Position) : Text := decimal p.halfmoves ++ ' ' :: decimal p.moveNumber

/-- The first four fields. -/
def epd (p : Position) : Text := p.epdShowing p.passed

/-- The position record. -/
def fen (p : Position) : Text := p.epd ++ ' ' :: p.counters

/-- The position record that names the square passed over only if the pawn on it can be taken
there. -/
def strictFen (p : Position) : Text :=
  p.epdShowing (if p.canTakeEnPassant then p.passed else none) ++ ' ' :: p.counters

end Position

/-! ## Reading -/

/-- How a position record can be malformed. -/
inductive FenFault
  | empty
  | turn
  | castling
  | passed
  | halfmoves
  | negativeHalfmoves
  | moveNumber
  | negativeMoveNumber
  | tooManyFields
  | rankCount
  | adjacentDigits
  | markWithoutPiece
  | invalidCharacter
  | rankLength
  deriving DecidableEq, Repr

namespace FenFault

/-- What is said about a malformed board field, of the field. -/
def boardPhrase? : FenFault → Option Text
  | rankCount => some "expected 8 rows in position part of fen: ".toList
  | adjacentDigits => some "two subsequent digits in position part of fen: ".toList
  | markWithoutPiece => some "'~' not after piece in position part of fen: ".toList
  | invalidCharacter => some "invalid character in position part of fen: ".toList
  | rankLength => some "expected 8 columns per row in position part of fen: ".toList
  | _ => none

/-- What is said about any other malformed field, of the whole record. -/
def recordPhrase : FenFault → Text
  | turn => "expected 'w' or 'b' for turn part of fen: ".toList
  | castling => "invalid castling part in fen: ".toList
  | passed => "invalid en passant part in fen: ".toList
  | halfmoves => "invalid half-move clock in fen: ".toList
  | negativeHalfmoves => "half-move clock cannot be negative: ".toList
  | moveNumber => "invalid fullmove number in fen: ".toList
  | negativeMoveNumber => "fullmove number cannot be negative: ".toList
  | _ => "fen string has more parts than expected: ".toList

/-- The message about a malformed record. -/
def message (fault : FenFault) (record : Text) : Text :=
  match fault, fault.boardPhrase? with
  | empty, _ => "empty fen".toList
  | _, some phrase => phrase ++ quoted ((words record).headD [])
  | _, none => fault.recordPhrase ++ quoted record

end FenFault

/-- The number of empty squares that a digit stands for. -/
def emptyRunOf? (c : Char) : Option Nat := (Rank.ofDigit? c).map fun r => r.val + 1

/-- Reads one rank. `digit` and `piece` say what the character before was. A mark `~` after a
piece is passed over. -/
def readRank (digit piece : Bool) : Text → Except FenFault (List (Option Piece))
  | [] => .ok []
  | c :: cs => match emptyRunOf? c with
    | some n =>
      if digit then .error .adjacentDigits
      else (readRank true false cs).map (List.replicate n none ++ ·)
    | none =>
      if c = '~' then if piece then readRank false false cs else .error .markWithoutPiece
      else match Piece.ofLetter? c with
        | some p => (readRank false true cs).map (some p :: ·)
        | none => .error .invalidCharacter

/-- Reads one rank of eight squares. -/
def readFullRank (t : Text) : Except FenFault (List (Option Piece)) :=
  match readRank false false t with
  | .error e => .error e
  | .ok cells => if cells.length = 8 then .ok cells else .error .rankLength

/-- The board of a list of ranks from the eighth down. -/
def Board.ofRanks (ranks : List (List (Option Piece))) : Board :=
  .ofFn fun s => ((ranks[7 - s.rank.val]?.bind fun cells => cells[s.file.val]?)).join

/-- Reads the board field. -/
def Board.ofText (t : Text) : Except FenFault Board :=
  let ranks := t.splitOn '/'
  if ranks.length = 8 then (ranks.mapM readFullRank).map Board.ofRanks else .error .rankCount

/-- The side that a field names. -/
def Color.ofText? : Text → Option Color
  | ['w'] => some .white
  | ['b'] => some .black
  | _ => none

/-- A letter that names castling on a wing or a rook's file, as a capital. -/
def isCastlingLetter (c : Char) : Bool := c == 'K' || c == 'Q' || ('A' ≤ c && c ≤ 'H')

/-- A castling field: at most two letters for White, then at most two for Black. -/
def isCastlingField (t : Text) : Bool :=
  let white := t.takeWhile isCastlingLetter
  let black := t.dropWhile isCastlingLetter
  t == ['-'] || (white.length ≤ 2 && black.length ≤ 2
    && black.all fun c => c.toUpper != c && isCastlingLetter c.toUpper)

/-- The letters that give a side the right to castle on a wing: the wing's letter, or the letter
of the file on which the rook starts. -/
def rightLetters : Color → Wing → Text
  | .white, .kingside => ['K', 'H']
  | .white, .queenside => ['Q', 'A']
  | .black, .kingside => ['k', 'h']
  | .black, .queenside => ['q', 'a']

/-- The rights that a castling field gives on a board. -/
def CastlingRights.ofText (b : Board) (t : Text) : CastlingRights :=
  .clean b (.ofFn fun c w => (rightLetters c w).any t.contains)

/-- Reads a counter. -/
def readCounter (malformed negative : FenFault) (t : Text) : Except FenFault Nat :=
  match readInteger? t with
  | none => .error malformed
  | some n => if n < 0 then .error negative else .ok n.toNat

/-- Reads the fields of a record. The board is read last. -/
def Position.ofFields (fields : List Text) : Except FenFault Position := do
  let field (i : Nat) (absent : Text) : Text := (fields[i]?).getD absent
  let some boardField := fields[0]? | .error .empty
  let some turn := Color.ofText? (field 1 ['w']) | .error .turn
  let castling := field 2 ['-']
  if !isCastlingField castling then .error .castling
  let passedField := field 3 ['-']
  let passed := Square.ofName? passedField
  if passed.isNone && passedField != ['-'] then .error .passed
  let halfmoves ← readCounter .halfmoves .negativeHalfmoves (field 4 ['0'])
  let moveNumber ← readCounter .moveNumber .negativeMoveNumber (field 5 ['1'])
  if fields.length > 6 then .error .tooManyFields
  let board ← Board.ofText boardField
  return { board, turn, rights := .ofText board castling, passed, halfmoves,
           moveNumber := max 1 moveNumber }

/-- Reads a position record. -/
def Position.ofFen (t : Text) : Except FenFault Position := Position.ofFields (words t)

/-- The first four fields of a record as they are written; none if the record is malformed. -/
def epdOfFen? (t : Text) : Option Text := (Position.ofFen t).toOption.map Position.epd

end Scoresheet.Chess
