import Scoresheet.Mainline.Basic
import Scoresheet.Proofs.Pgn.ScanText

/-!
# How many moves a text can hold

A word of the movetext reports one move at most, and no word is empty that reports one. So a scan
reports no more moves than it has read characters, and a text has no more moves than characters
(`length_sans_first_le`).
-/

namespace Scoresheet.Pgn

open Text Chess

/-- The number of moves that events report. -/
def moveCount (es : List Event) : Nat := (es.filterMap Transcript.san?).length

@[simp] theorem moveCount_nil : moveCount [] = 0 := rfl

theorem moveCount_append (es es' : List Event) :
    moveCount (es ++ es') = moveCount es + moveCount es' := by
  rw [moveCount, List.filterMap_append, List.length_append, moveCount, moveCount]

theorem moveCount_eq_zero {es : List Event} (h : ∀ e ∈ es, Transcript.san? e = none) :
    moveCount es = 0 := by
  rw [moveCount, List.filterMap_eq_nil_iff.2 h, List.length_nil]

/-! ## Words -/

theorem moveCount_of_moveEvents? {w : Text} {es : List Event} (h : moveEvents? w = some es) :
    moveCount es = 1 := by
  simp only [moveEvents?, Option.map_eq_some_iff] at h
  obtain ⟨san, _, rfl⟩ := h
  have hglyph : moveCount ((glyphCode? (splitGlyph w).2).toList.map .nag) = 0 := by
    refine moveCount_eq_zero ?_
    intro e he
    obtain ⟨code, _, rfl⟩ := List.mem_map.1 he
    rfl
  exact congrArg Nat.succ hglyph

theorem moveCount_wordEvents_le {w : Text} {es : List Event} (h : wordEvents w = .ok es) :
    moveCount es ≤ w.length := by
  fun_induction wordEvents w with
  | case1 | case3 | case7 =>
    obtain rfl : es = [] := by simpa using h.symm
    exact Nat.zero_le _
  | case2 cs _ =>
    cases hn : readNumeral cs with
    | error n => simp [hn, Except.map] at h
    | ok n =>
      obtain rfl : es = [.nag n] := by simpa [hn, Except.map] using h.symm
      exact Nat.zero_le _
  | case4 =>
    obtain rfl := Except.ok.inj h
    exact Nat.zero_le _
  | case5 _ _ _ _ es' hm =>
    obtain rfl := Except.ok.inj h
    rw [moveCount_of_moveEvents? hm, List.length_cons]
    exact Nat.le_add_left 1 _
  | case6 c cs _ _ _ _ ih => exact Nat.le_trans (ih h) (length_dropMoveNumber_le (c :: cs))

theorem Cursor.moveCount_readWord_le {s s' : Cursor} {word : Text} {es : List Event}
    (h : s.readWord word = .ok (es, s')) : moveCount es ≤ word.length := by
  rcases readWord_cases h with ⟨_, marker, _, rfl, _⟩ | ⟨_, hword, _⟩ | ⟨_, rfl, _⟩
  · exact Nat.zero_le _
  · exact moveCount_wordEvents_le hword
  · exact Nat.zero_le _

theorem Cursor.moveCount_readBreak (s : Cursor) (c : Char) : moveCount (s.readBreak c).1 = 0 := by
  unfold readBreak
  split
  · rfl
  · split
    · split <;> rfl
    · split <;> rfl

/-! ## Scans -/

/-- The characters of the word in progress count as well. -/
theorem moveCount_scanLine_le (line : Line) (s : Cursor) (word : Text) :
    moveCount (scanLine s word line).events ≤ word.length + line.length := by
  induction line generalizing s word with
  | nil =>
    rw [scanLine]
    split
    · rename_i hword
      simpa using Cursor.moveCount_readWord_le hword
    · exact Nat.zero_le _
  | cons c cs ih =>
    rw [scanLine, List.length_cons]
    split
    · split
      · have hcomment : ∀ body : Text,
            moveCount (if s.depth = 0 then [.comment body.reverse] else []) = 0 := by
          intro body
          split <;> rfl
        have hrest := ih { s with comment := none } []
        simp only [LineScan.after, moveCount_append, hcomment, List.length_nil] at hrest ⊢
        omega
      · rename_i body _ _
        have hrest := ih { s with comment := some (c :: body) } []
        simp only [List.length_nil] at hrest
        omega
    · split
      · exact Nat.zero_le _
      · split
        · split
          · exact Nat.zero_le _
          · rename_i events s' hword
            have hevents := Cursor.moveCount_readWord_le hword
            rw [List.length_reverse] at hevents
            split
            · simp only
              omega
            · have hrest := ih (s'.readBreak c).2 []
              simp only [LineScan.after, moveCount_append, Cursor.moveCount_readBreak,
                List.length_nil] at hrest ⊢
              omega
        · have hrest := ih s (c :: word)
          rw [List.length_cons] at hrest
          omega

/-- **A scan reports no more moves than it has characters before it.** -/
theorem moveCount_scanLines_le (lines : List Line) (s : Cursor) :
    moveCount (scanLines s lines).events ≤ lines.flatten.length := by
  induction lines generalizing s with
  | nil =>
    rw [scanLines]
    split
    · exact Nat.le_refl _
    · split <;> exact Nat.le_refl _
  | cons line lines ih =>
    rw [scanLines, List.flatten_cons, List.length_append]
    have hline := moveCount_scanLine_le line s []
    rw [List.length_nil, Nat.zero_add] at hline
    split
    · exact Nat.zero_le _
    · split
      · exact Nat.le_add_left_of_le (ih s)
      · split
        · rename_i events s' hscan
          rw [hscan] at hline
          have hrest := ih s'
          simp only [Movetext.after, moveCount_append] at hline ⊢
          omega
        · rename_i events rest hscan
          rw [hscan] at hline
          exact Nat.le_add_right_of_le hline
        · rename_i events e hscan
          rw [hscan] at hline
          exact Nat.le_add_right_of_le hline

/-! ## Games -/

theorem body_readTags_suffix (lines : List Line) : (readTags lines).body <:+ lines := by
  fun_induction readTags lines with
  | case1 => exact List.suffix_rfl
  | case2 line lines _ rest _ _ ih => exact ih.trans (List.suffix_cons line lines)
  | case3 line lines _ rest _ ih => exact ih.trans (List.suffix_cons line lines)
  | case4 line lines _ _ ih => exact ih.trans (List.suffix_cons line lines)
  | case5 => exact List.suffix_rfl

theorem length_flatten_le_of_suffix {ls ls' : List Line} (h : ls <:+ ls') :
    ls.flatten.length ≤ ls'.flatten.length := by
  obtain ⟨front, rfl⟩ := h
  rw [List.flatten_append, List.length_append]
  exact Nat.le_add_left _ _

theorem moveCount_tags (tags : List Tag) :
    moveCount (tags.map fun tag => .tag tag.key tag.value) = 0 := by
  refine moveCount_eq_zero ?_
  intro e he
  obtain ⟨tag, _, rfl⟩ := List.mem_map.1 he
  rfl

/-- All moves of a game are in its movetext. -/
theorem length_sans_gameFrom (lines : List Line) : (gameFrom lines).1.sans.length
    = moveCount (scanLines .start (readTags lines).body).events := by
  have hends : ∀ error : Option ReadError,
      moveCount (if error.isNone then [.endGame] else []) = 0 := by
    intro error
    split <;> rfl
  have hevents : (gameFrom lines).1.events
      = [.beginTags] ++ (readTags lines).tags.map (fun tag => .tag tag.key tag.value)
        ++ ([.beginMovetext] ++ (scanLines .start (readTags lines).body).events)
        ++ (if (gameFrom lines).1.error.isNone then [.endGame] else []) := rfl
  have hopen : moveCount [.beginTags] = 0 ∧ moveCount [.beginMovetext] = 0 := ⟨rfl, rfl⟩
  show moveCount (gameFrom lines).1.events = _
  simp only [hevents, moveCount_append, moveCount_tags, hends, hopen, Nat.zero_add, Nat.add_zero]

/-- **A text has no more moves than characters.** -/
theorem length_sans_first_le (m : Text) : (Transcript.first m).sans.length ≤ m.length := by
  unfold Transcript.first readGame
  split
  · exact Nat.zero_le _
  · rename_i line rest hdrop
    have hsuffix : line :: rest <:+ lines m := hdrop ▸ List.dropWhile_suffix _
    have hlength := length_flatten_le_of_suffix hsuffix
    rw [flatten_lines] at hlength
    show (gameFrom (line :: rest)).1.sans.length ≤ m.length
    rw [length_sans_gameFrom]
    calc moveCount (scanLines .start (readTags (line :: rest)).body).events
        ≤ (readTags (line :: rest)).body.flatten.length := moveCount_scanLines_le _ _
      _ ≤ (line :: rest).flatten.length :=
          length_flatten_le_of_suffix (body_readTags_suffix _)
      _ ≤ m.length := hlength

end Scoresheet.Pgn
