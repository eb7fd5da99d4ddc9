/-!
# Pieces

The two sides, the six kinds of chessmen, and their letters. `Officer` is a kind other than the
pawn: those have a letter of their own in move notation and can be named in a promotion.
-/

namespace Scoresheet.Chess

/-- The two sides. -/
inductive Color
  | white
  | black
  deriving DecidableEq, Repr, Inhabited

namespace Color

/-- The opponent. -/
def other : Color → Color
  | white => black
  | black => white

@[simp] theorem other_other (c : Color) : c.other.other = c := by cases c <;> rfl

end Color

/-- A chessman that is no pawn. -/
inductive Officer
  | knight
  | bishop
  | rook
  | queen
  | king
  deriving DecidableEq, Repr

namespace Officer

/-- The capital letter of an officer. -/
def letter : Officer → Char
  | knight => 'N'
  | bishop => 'B'
  | rook => 'R'
  | queen => 'Q'
  | king => 'K'

/-- The officer of a capital letter. -/
def ofLetter? : Char → Option Officer
  | 'N' => some knight
  | 'B' => some bishop
  | 'R' => some rook
  | 'Q' => some queen
  | 'K' => some king
  | _ => none

/-- The officer of a letter in either case. -/
def ofEitherLetter? : Char → Option Officer
  | 'n' => some knight
  | 'b' => some bishop
  | 'r' => some rook
  | 'q' => some queen
  | 'k' => some king
  | c => ofLetter? c

@[simp] theorem ofLetter?_letter (o : Officer) : ofLetter? o.letter = some o := by
  cases o <;> rfl

@[simp] theorem ofEitherLetter?_letter (o : Officer) : ofEitherLetter? o.letter = some o := by
  cases o <;> rfl

end Officer

/-- The kind of a chessman. -/
inductive Kind
  | pawn
  | officer (o : Officer)
  deriving DecidableEq, Repr

/-- A chessman of one side. -/
structure Piece where
  color : Color
  kind : Kind
  deriving DecidableEq, Repr

namespace Piece

/-- The letter of a piece: a capital for White, a small letter for Black. -/
def letter : Piece → Char
  | ⟨.white, .pawn⟩ => 'P'
  | ⟨.black, .pawn⟩ => 'p'
  | ⟨.white, .officer o⟩ => o.letter
  | ⟨.black, .officer o⟩ => o.letter.toLower

/-- The piece of a letter. The sign of the kelvin, whose small letter is `k`, passes for a `K`. -/
def ofLetter? : Char → Option Piece
  | '\u212a' => some ⟨.white, .officer .king⟩
  | 'P' => some ⟨.white, .pawn⟩
  | 'p' => some ⟨.black, .pawn⟩
  | c => match Officer.ofLetter? c with
    | some o => some ⟨.white, .officer o⟩
    | none => (Officer.ofEitherLetter? c).map fun o => ⟨.black, .officer o⟩

@[simp] theorem ofLetter?_letter (p : Piece) : ofLetter? p.letter = some p := by
  obtain ⟨c, k⟩ := p
  cases c <;> cases k with
  | pawn => rfl
  | officer o => cases o <;> rfl

end Piece

end Scoresheet.Chess
