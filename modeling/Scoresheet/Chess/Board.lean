import Scoresheet.Chess.Piece
import Scoresheet.Chess.Square

/-!
# Boards

A board holds a piece or nothing on each square. It is known by what `get` gives: `get_set` says
what setting a square does, and boards with the same pieces are equal (`Board.ext_get`).
-/

namespace Scoresheet.Chess

/-- What stands on each square, by the number of the square. -/
structure Board where
  cells : Vector (Option Piece) 64
  deriving DecidableEq

namespace Board

/-- What stands on a square. -/
def get (b : Board) (s : Square) : Option Piece :=
  have := s.index_lt
  b.cells[s.index]

/-- The board with something else on a square. -/
def set (b : Board) (s : Square) (p : Option Piece) : Board :=
  ⟨b.cells.set s.index p s.index_lt⟩

/-- The board that holds on each square what a function says. -/
def ofFn (f : Square → Option Piece) : Board :=
  ⟨Vector.ofFn fun i => f ⟨⟨i.val % 8, by omega⟩, ⟨i.val / 8, by omega⟩⟩⟩

/-- A board without pieces. -/
def empty : Board := ofFn fun _ => none

@[simp] theorem get_ofFn (f : Square → Option Piece) (s : Square) : (ofFn f).get s = f s := by
  have hf : s.index % 8 = s.file.val := by
    have := s.file.isLt
    simp only [Square.index]
    omega
  have hr : s.index / 8 = s.rank.val := by
    have := s.file.isLt
    simp only [Square.index]
    omega
  simp [ofFn, get, hf, hr]

theorem get_set (b : Board) (s t : Square) (p : Option Piece) :
    (b.set s p).get t = if s = t then p else b.get t := by
  simp only [get, set, Vector.getElem_set]
  by_cases h : s = t
  · simp [h]
  · have : s.index ≠ t.index := fun hi => h (Square.index_injective hi)
    simp [h, this]

/-- A board is known by what stands on its squares. -/
theorem ext_get {a b : Board} (h : ∀ s, a.get s = b.get s) : a = b := by
  obtain ⟨a⟩ := a
  obtain ⟨b⟩ := b
  congr
  apply Vector.ext
  intro i hi
  have := h ⟨⟨i % 8, by omega⟩, ⟨i / 8, by omega⟩⟩
  simp only [get, Square.index] at this
  have hi' : 8 * (i / 8) + i % 8 = i := by omega
  simpa [hi'] using this

/-! ## The start of a game -/

/-- The officer that starts on a file of the back rank. -/
def backRankOfficer (f : File) : Officer :=
  match f.val with
  | 0 | 7 => .rook
  | 1 | 6 => .knight
  | 2 | 5 => .bishop
  | 3 => .queen
  | _ => .king

/-- The board on which games start. -/
def initial : Board :=
  ofFn fun s => match s.rank.val with
    | 0 => some ⟨.white, .officer (backRankOfficer s.file)⟩
    | 1 => some ⟨.white, .pawn⟩
    | 6 => some ⟨.black, .pawn⟩
    | 7 => some ⟨.black, .officer (backRankOfficer s.file)⟩
    | _ => none

end Board

end Scoresheet.Chess
