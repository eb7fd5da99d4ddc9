import Scoresheet.Text.Basic
import Scoresheet.Chess.Piece
import Scoresheet.Chess.Square

/-!
# Standard algebraic notation

`San` is what a move text says; `San.read?` reads it from the spellings in use (`0-0` for `O-O`,
`e8q` for `e8=Q`, `Ng1-f3` for `Ng1f3`) and `San.toText` writes the canonical one. Reading the
canonical spelling gives the same move text back (`read?_toText`), so respelling twice changes
nothing more than respelling once.

No class of characters of the notation can be mistaken for the one beside it when a text is read
from its end, so reading goes from the last character to the first and never has to go back.
-/

namespace Scoresheet.Chess

/-- The wing on which a king castles. -/
inductive Wing
  | kingside
  | queenside
  deriving DecidableEq, Repr

/-- The mark of a check or a mate. -/
inductive CheckMark
  | check
  | mate
  deriving DecidableEq, Repr

namespace CheckMark

def char : CheckMark → Char
  | check => '+'
  | mate => '#'

def ofChar? : Char → Option CheckMark
  | '+' => some check
  | '#' => some mate
  | _ => none

@[simp] theorem ofChar?_char (m : CheckMark) : ofChar? m.char = some m := by cases m <;> rfl

end CheckMark

/-- What the text of a move other than castling says. Marks and the capture sign are kept as
written and not checked against any position. -/
structure MoveText where
  /-- The officer that moves; absent for a pawn, or where both parts of the source are given. -/
  officer : Option Officer
  sourceFile : Option File
  sourceRank : Option Rank
  captures : Bool
  target : Square
  promotion : Option Officer
  mark : Option CheckMark
  deriving DecidableEq, Repr

/-- What the text of a move says. -/
inductive San
  | castling (wing : Wing) (mark : Option CheckMark)
  | move (m : MoveText)
  deriving DecidableEq, Repr

/-- Takes the first character of a text if it belongs to a class. -/
def takeOne {α : Type} (read : Char → Option α) : Text → Option α × Text
  | [] => (none, [])
  | c :: cs => match read c with
    | some a => (some a, cs)
    | none => (none, c :: cs)

namespace MoveText

/-- The sign between the source and the target of a move; it is `true` for a capture. -/
def separator? : Char → Option Bool
  | 'x' => some true
  | '-' => some false
  | _ => none

/-- Reads a move text from its characters in reverse order. -/
def readReversed? (t : Text) : Option MoveText :=
  let (mark, t) := takeOne CheckMark.ofChar? t
  let (promotion, t) := takeOne Officer.ofEitherLetter? t
  let t := match promotion, t with
    | some _, '=' :: cs => cs
    | _, cs => cs
  match t with
  | r :: f :: t =>
    match Rank.ofDigit? r, File.ofLetter? f with
    | some rank, some file =>
      let (separator, t) := takeOne separator? t
      let (sourceRank, t) := takeOne Rank.ofDigit? t
      let (sourceFile, t) := takeOne File.ofLetter? t
      let (officer, t) := takeOne Officer.ofLetter? t
      if t.isEmpty then
        some { officer, sourceFile, sourceRank, captures := separator.getD false,
               target := ⟨file, rank⟩, promotion, mark }
      else none
    | _, _ => none
  | _ => none

/-- The move text that a text is, if any. -/
def read? (t : Text) : Option MoveText := readReversed? t.reverse

/-- The canonical spelling: no hyphen, and a promotion by an equals sign and a capital letter. -/
def toText (m : MoveText) : Text :=
  m.officer.toList.map Officer.letter ++ m.sourceFile.toList.map File.letter
    ++ m.sourceRank.toList.map Rank.digit ++ (if m.captures then ['x'] else [])
    ++ m.target.name ++ (m.promotion.toList.flatMap fun o => ['=', o.letter])
    ++ m.mark.toList.map CheckMark.char

/-! ## Reading what was written -/

/-! The classes that a reversed canonical text runs through are disjoint. -/

theorem ofChar?_digit (r : Rank) : CheckMark.ofChar? r.digit = none := by revert r; decide
theorem ofEitherLetter?_digit (r : Rank) : Officer.ofEitherLetter? r.digit = none := by
  revert r; decide
theorem separator?_x : separator? 'x' = some true := rfl
theorem separator?_digit (r : Rank) : separator? r.digit = none := by revert r; decide
theorem separator?_fileLetter (f : File) : separator? f.letter = none := by revert f; decide
theorem ofDigit?_fileLetter (f : File) : Rank.ofDigit? f.letter = none := by revert f; decide
theorem ofChar?_officer (o : Officer) : CheckMark.ofChar? o.letter = none := by cases o <;> rfl
theorem separator?_officer (o : Officer) : separator? o.letter = none := by cases o <;> rfl
theorem ofDigit?_officer (o : Officer) : Rank.ofDigit? o.letter = none := by cases o <;> decide
theorem ofLetter?_officer (o : Officer) : File.ofLetter? o.letter = none := by cases o <;> decide

/-- Reading the canonical spelling of a move text gives the move text back. -/
theorem read?_toText (m : MoveText) : read? m.toText = some m := by
  obtain ⟨o, f, r, x, ⟨tf, tr⟩, p, k⟩ := m
  cases o <;> cases f <;> cases r <;> cases x <;> cases p <;> cases k <;>
    simp [read?, readReversed?, toText, Square.name, takeOne, ofChar?_digit,
      ofEitherLetter?_digit, separator?_digit, separator?_fileLetter, ofDigit?_fileLetter,
      ofChar?_officer, separator?_officer, ofDigit?_officer, ofLetter?_officer, separator?_x]

end MoveText

namespace San

/-- The wing that a castling text without mark names, with the letter O or the digit zero. -/
def wing? : Text → Option Wing
  | ['O', '-', 'O'] => some .kingside
  | ['0', '-', '0'] => some .kingside
  | ['O', '-', 'O', '-', 'O'] => some .queenside
  | ['0', '-', '0', '-', '0'] => some .queenside
  | _ => none

/-- The castling that a text names, with an optional mark at its end. -/
def readCastling? (t : Text) : Option San :=
  let (mark, rest) := takeOne CheckMark.ofChar? t.reverse
  (wing? rest.reverse).map fun wing => .castling wing mark

/-- The move text that a text is, if any. -/
def read? (t : Text) : Option San :=
  match readCastling? t with
  | some s => some s
  | none => (MoveText.read? t).map .move

/-- The canonical spelling of castling. -/
def wingText : Wing → Text
  | .kingside => ['O', '-', 'O']
  | .queenside => ['O', '-', 'O', '-', 'O']

/-- The canonical spelling of a move text. -/
def toText : San → Text
  | castling wing mark => wingText wing ++ mark.toList.map CheckMark.char
  | move m => m.toText

/-- The canonical spelling of a text that is a move text. A line feed after castling is passed
over. -/
def canonical? (t : Text) : Option Text :=
  let line := if t.getLast? = some '\n' then t.dropLast else t
  match readCastling? line with
  | some s => some s.toText
  | none => (MoveText.read? t).map MoveText.toText

end San

end Scoresheet.Chess
