/-!
# Squares

A square is a file and a rank. Squares have a number from 0 (`a1`) to 63 (`h8`), rank by rank,
and a name of a file letter and a rank digit; reading a name gives its square back.
-/

namespace Scoresheet.Chess

/-- A file, from 0 (the `a` file) to 7. -/
abbrev File := Fin 8

/-- A rank, from 0 (White's back rank) to 7. -/
abbrev Rank := Fin 8

/-- The letter of a file. -/
def File.letter (f : File) : Char := Char.ofNat (0x61 + f.val)

/-- The digit of a rank. -/
def Rank.digit (r : Rank) : Char := Char.ofNat (0x31 + r.val)

/-- The file of a letter from `a` to `h`. -/
def File.ofLetter? (c : Char) : Option File :=
  if h : 0x61 ≤ c.toNat ∧ c.toNat < 0x69 then some ⟨c.toNat - 0x61, by omega⟩ else none

/-- The rank of a digit from `1` to `8`. -/
def Rank.ofDigit? (c : Char) : Option Rank :=
  if h : 0x31 ≤ c.toNat ∧ c.toNat < 0x39 then some ⟨c.toNat - 0x31, by omega⟩ else none

@[simp] theorem File.ofLetter?_letter (f : File) : File.ofLetter? f.letter = some f := by
  revert f; decide

@[simp] theorem Rank.ofDigit?_digit (r : Rank) : Rank.ofDigit? r.digit = some r := by
  revert r; decide

/-- A square of the board. -/
structure Square where
  file : File
  rank : Rank
  deriving DecidableEq, Repr, Inhabited

namespace Square

/-- The number of a square: `a1` is 0, `b1` is 1, and `h8` is 63. -/
def index (s : Square) : Nat := 8 * s.rank.val + s.file.val

theorem index_lt (s : Square) : s.index < 64 := by
  have := s.file.isLt
  have := s.rank.isLt
  unfold index
  omega

theorem index_injective {s t : Square} (h : s.index = t.index) : s = t := by
  obtain ⟨f, r⟩ := s
  obtain ⟨g, q⟩ := t
  simp only [index] at h
  have hf : f.val = g.val := by omega
  have hr : r.val = q.val := by omega
  rw [Fin.ext hf, Fin.ext hr]

/-- All squares in the order of their numbers. -/
def all : List Square :=
  (List.finRange 8).flatMap fun r => (List.finRange 8).map fun f => ⟨f, r⟩

theorem mem_all (s : Square) : s ∈ all := by
  simp only [all, List.mem_flatMap, List.mem_map]
  exact ⟨s.rank, List.mem_finRange _, s.file, List.mem_finRange _, rfl⟩

/-- The name of a square, such as `e4`. -/
def name (s : Square) : List Char := [s.file.letter, s.rank.digit]

/-- The square of a name. -/
def ofName? : List Char → Option Square
  | [f, r] => (File.ofLetter? f).bind fun f => (Rank.ofDigit? r).map fun r => ⟨f, r⟩
  | _ => none

@[simp] theorem ofName?_name (s : Square) : ofName? s.name = some s := by
  simp [ofName?, name]

/-- The square that lies `files` to the right and `ranks` up, if it is on the board. -/
def offset? (s : Square) (files ranks : Int) : Option Square :=
  let f := (s.file.val : Int) + files
  let r := (s.rank.val : Int) + ranks
  if h : (0 ≤ f ∧ f < 8) ∧ 0 ≤ r ∧ r < 8 then
    some ⟨⟨f.toNat, by omega⟩, ⟨r.toNat, by omega⟩⟩
  else none

end Square

end Scoresheet.Chess
