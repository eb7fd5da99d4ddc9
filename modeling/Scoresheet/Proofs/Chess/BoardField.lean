import Scoresheet.Chess.Fen
import Scoresheet.Proofs.Text.Joining

/-!
# The board field of a position record

The board field is read back as it was written (`Board.ofText_toText`), so it says what stands on
every square. A run of empty squares on a rank is at most eight squares long and is written with
one digit; the character after it is a piece or the end of the rank, so no two digits meet.
-/

namespace Scoresheet.Chess

open Text

/-! ## Runs of empty squares -/

theorem emptyRun_eq {n : Nat} (hpos : n ≠ 0) (h : n ≤ 8) :
    emptyRun n = [n.digitChar] ∧ emptyRunOf? n.digitChar = some n := by
  have hall : ∀ m : Fin 9, m.val ≠ 0 →
      emptyRun m = [m.val.digitChar] ∧ emptyRunOf? m.val.digitChar = some m.val := by decide
  exact hall ⟨n, by omega⟩ hpos

theorem emptyRunOf?_letter (p : Piece) : emptyRunOf? p.letter = none := by
  obtain ⟨c, k⟩ := p
  cases c <;> cases k with
  | pawn => rfl
  | officer o => cases o <;> rfl

theorem letter_ne_mark (p : Piece) : p.letter ≠ '~' := by
  obtain ⟨c, k⟩ := p
  cases c <;> cases k with
  | pawn => decide
  | officer o => cases o <;> decide

/-! ## Ranks -/

/-- A piece is read whatever stands before it. -/
theorem readRank_letter (digit piece : Bool) (p : Piece) (t : Text) :
    readRank digit piece (p.letter :: t) = (readRank false true t).map (some p :: ·) := by
  rw [readRank, emptyRunOf?_letter]
  simp only [if_neg (letter_ne_mark p), Piece.ofLetter?_letter]

/-- A run of empty squares is read before a text that may follow a digit. -/
theorem readRank_emptyRun {run : Nat} (h : run ≤ 8) (piece : Bool) {t : Text}
    {cells : List (Option Piece)} (ht : ∀ digit piece, readRank digit piece t = .ok cells) :
    readRank false piece (emptyRun run ++ t) = .ok (List.replicate run none ++ cells) := by
  by_cases hrun : run = 0
  · subst hrun
    exact ht false piece
  · obtain ⟨hdigit, hread⟩ := emptyRun_eq hrun h
    rw [hdigit, List.singleton_append, readRank, hread]
    simp only [Bool.false_eq_true, if_false, ht]
    rfl

/-- **A rank is read back as it was written.** The run before it grows with each empty square, so
it is kept general. -/
theorem readRank_rankText {cells : List (Option Piece)} {run : Nat} (h : run + cells.length ≤ 8)
    (piece : Bool) :
    readRank false piece (rankText run cells) = .ok (List.replicate run none ++ cells) := by
  induction cells generalizing run piece with
  | nil =>
    have hnil := readRank_emptyRun (t := []) h piece fun _ _ => readRank.eq_1 _ _
    rwa [List.append_nil] at hnil
  | cons cell cells ih =>
    rw [List.length_cons] at h
    cases cell with
    | none =>
      rw [rankText, ih (by omega), List.replicate_succ', List.append_assoc]
      rfl
    | some p =>
      have hrest : readRank false true (rankText 0 cells) = .ok cells := ih (by omega) true
      refine readRank_emptyRun (by omega) piece ?_
      intro digit piece
      rw [readRank_letter, hrest]
      rfl

theorem readFullRank_rankText {cells : List (Option Piece)} (h : cells.length = 8) :
    readFullRank (rankText 0 cells) = .ok cells := by
  have hread : readRank false false (rankText 0 cells) = .ok cells :=
    readRank_rankText (by omega) false
  rw [readFullRank, hread]
  exact if_pos h

/-! ## The characters of the field -/

/-- A character that may stand in a rank: it is visible and does not end the rank. -/
def IsRankChar (c : Char) : Prop := isBlank c = false ∧ c ≠ '/'

theorem isRankChar_letter (p : Piece) : IsRankChar p.letter := by
  unfold IsRankChar
  obtain ⟨c, k⟩ := p
  cases c <;> cases k with
  | pawn => decide
  | officer o => cases o <;> decide

theorem isRankChar_of_mem_emptyRun {run : Nat} (h : run ≤ 8) {c : Char} (hc : c ∈ emptyRun run) :
    IsRankChar c := by
  have hall : ∀ n : Fin 9, (emptyRun n).all (fun c => !isBlank c && c != '/') = true := by decide
  have hchar := List.all_eq_true.1 (hall ⟨run, by omega⟩) c hc
  simpa [IsRankChar] using hchar

theorem isRankChar_of_mem_rankText {cells : List (Option Piece)} {run : Nat}
    (h : run + cells.length ≤ 8) {c : Char} (hc : c ∈ rankText run cells) : IsRankChar c := by
  induction cells generalizing run with
  | nil => exact isRankChar_of_mem_emptyRun h hc
  | cons cell cells ih =>
    rw [List.length_cons] at h
    cases cell with
    | none =>
      have hrun : run + 1 + cells.length ≤ 8 := by omega
      exact ih hrun hc
    | some p =>
      rw [rankText, List.mem_append, List.mem_cons] at hc
      rcases hc with hc | rfl | hc
      · exact isRankChar_of_mem_emptyRun (by omega) hc
      · exact isRankChar_letter p
      · have hrun : 0 + cells.length ≤ 8 := by omega
        exact ih hrun hc

/-! ## Boards -/

namespace Board

theorem length_rankCells (b : Board) (r : Rank) : (b.rankCells r).length = 8 := by
  rw [rankCells, List.length_map, List.length_finRange]

/-- The texts of the ranks, from the eighth down. -/
def rankTexts (b : Board) : List Text :=
  (List.finRange 8).reverse.map fun r => rankText 0 (b.rankCells r)

theorem length_rankTexts (b : Board) : b.rankTexts.length = 8 := by
  rw [rankTexts, List.length_map, List.length_reverse, List.length_finRange]

theorem isRankChar_of_mem_rankTexts (b : Board) {t : Text} (ht : t ∈ b.rankTexts) {c : Char}
    (hc : c ∈ t) : IsRankChar c := by
  obtain ⟨r, _, rfl⟩ := List.mem_map.1 ht
  exact isRankChar_of_mem_rankText (Nat.le_of_eq (by rw [length_rankCells])) hc

theorem splitOn_toText (b : Board) : b.toText.splitOn '/' = b.rankTexts := by
  refine List.splitOn_intercalate '/' ?_ ?_
  · intro t ht hc
    exact (b.isRankChar_of_mem_rankTexts ht hc).2 rfl
  · exact List.ne_nil_of_length_eq_add_one b.length_rankTexts

/-- The ranks from the eighth down are read back. -/
theorem mapM_readFullRank (b : Board) (ranks : List Rank) :
    (ranks.map fun r => rankText 0 (b.rankCells r)).mapM readFullRank
      = .ok (ranks.map b.rankCells) := by
  induction ranks with
  | nil => rfl
  | cons r ranks ih =>
    rw [List.map_cons, List.mapM_cons, readFullRank_rankText (b.length_rankCells r), ih]
    rfl

theorem ofRanks_rankCells (b : Board) :
    ofRanks ((List.finRange 8).reverse.map b.rankCells) = b := by
  refine ext_get ?_
  intro s
  have hrank : ∀ r : Rank, (List.finRange 8).reverse[7 - r.val]? = some r := by decide
  have hfile : ∀ f : File, (List.finRange 8)[f.val]? = some f := by decide
  rw [ofRanks, get_ofFn, List.getElem?_map, hrank, Option.map_some, Option.bind_some, rankCells,
    List.getElem?_map, hfile]
  rfl

/-- **A board is read back from its field.** -/
theorem ofText_toText (b : Board) : ofText b.toText = .ok b := by
  have hranks : b.rankTexts.mapM readFullRank = .ok ((List.finRange 8).reverse.map b.rankCells) :=
    b.mapM_readFullRank _
  rw [ofText, splitOn_toText]
  simp only [length_rankTexts, if_true, hranks, Except.map, ofRanks_rankCells]

theorem toText_injective {a b : Board} (h : a.toText = b.toText) : a = b := by
  have hread := a.ofText_toText
  rw [h, ofText_toText] at hread
  exact (Except.ok.inj hread).symm

/-- The board field is visible throughout. -/
theorem not_isBlank_of_mem_toText (b : Board) {c : Char} (h : c ∈ b.toText) :
    isBlank c = false := by
  cases hblank : isBlank c with
  | false => rfl
  | true =>
    have hstroke : c ∉ ['/'] := by
      rintro hc
      rw [List.mem_singleton.1 hc] at hblank
      exact absurd hblank (by decide)
    have hranks : ∀ t ∈ b.rankTexts, c ∉ t := by
      intro t ht hct
      rw [(b.isRankChar_of_mem_rankTexts ht hct).1] at hblank
      exact Bool.false_ne_true hblank
    exact absurd h (not_mem_join hstroke hranks)

/-- There are strokes between the ranks. -/
theorem toText_ne_nil (b : Board) : b.toText ≠ [] := by
  intro h
  have hsplit := b.splitOn_toText
  rw [h] at hsplit
  have hlength := congrArg List.length hsplit
  rw [length_rankTexts] at hlength
  exact absurd hlength (by decide)

end Board

end Scoresheet.Chess
