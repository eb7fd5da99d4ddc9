import Mathlib.Data.List.DropRight
import Scoresheet.Proofs.Pgn.ScanText

/-!
# Where a game starts

Lines of white space and lines that start with a percent sign belong to no game. They are passed
over before a game, among its tags and, outside comments, in its movetext
(`scanLines_dropWhile`), so a game may be read from behind them.

A text that starts quietly has no tags: it is read as the movetext it is
(`readGame_of_startsQuietly`).
-/

namespace Scoresheet.Pgn

open Text

/-! ## Lines that belong to no game -/

/-- A line that belongs to no game shows no bracket first. -/
theorem opensTag_of_isBetweenGames {line : Line} (h : isBetweenGames line = true) :
    opensTag line = false := by
  rw [isBetweenGames, Bool.or_eq_true] at h
  unfold opensTag
  rcases h with h | h
  · rw [← List.append_nil line, trimLeft_append h]
    rfl
  · obtain ⟨cs, rfl⟩ : ∃ cs, line = '%' :: cs := by
      cases line with
      | nil => simp [isEscapeLine] at h
      | cons c cs => exact ⟨cs, by rw [show c = '%' by simpa [isEscapeLine] using h]⟩
    rw [trimLeft_cons_of_not_isBlank (by decide)]
    rfl

/-- Outside comments a line that belongs to no game does nothing. -/
theorem scanLines_of_isBetweenGames {s : Cursor} (hs : s.comment = none) {line : Line}
    (h : isBetweenGames line = true) (lines : List Line) :
    scanLines s (line :: lines) = scanLines s lines := by
  have ho := opensTag_of_isBetweenGames h
  by_cases he : isEscapeLine line = true
  · rw [scanLines]
    simp [hs, ho, he]
  · have hb : isBlankText line = true := by simpa [isBetweenGames, he] using h
    rw [scanLines_cons _ (Or.inr ⟨ho, by simpa using he⟩), scanLine_of_isBlankText hs hb]
    rfl

/-- Outside comments the lines that belong to no game are passed over. -/
theorem scanLines_dropWhile {s : Cursor} (hs : s.comment = none) (lines : List Line) :
    scanLines s (lines.dropWhile isBetweenGames) = scanLines s lines := by
  induction lines with
  | nil => rfl
  | cons line lines ih =>
    by_cases h : isBetweenGames line = true
    · rw [List.dropWhile_cons_of_pos h, ih, scanLines_of_isBetweenGames hs h]
    · rw [List.dropWhile_cons_of_neg h]

/-- Among tags the lines that belong to no game are passed over. -/
theorem readTags_dropWhile (lines : List Line) :
    readTags (lines.dropWhile isBetweenGames) = readTags lines := by
  induction lines with
  | nil => rfl
  | cons line lines ih =>
    by_cases h : isBetweenGames line = true
    · have ho := opensTag_of_isBetweenGames h
      rw [List.dropWhile_cons_of_pos h, ih, readTags, if_neg (by simp [ho]),
        if_pos (by rwa [isBetweenGames] at h)]
    · rw [List.dropWhile_cons_of_neg h]

theorem gameFrom_dropWhile (lines : List Line) :
    gameFrom (lines.dropWhile isBetweenGames) = gameFrom lines := by
  rw [gameFrom, gameFrom, readTags_dropWhile]

/-- A game is read wherever a line belongs to one. -/
theorem readGame_of_exists {lines : List Line} (h : ∃ line ∈ lines, isBetweenGames line = false) :
    readGame lines = some (gameFrom lines) := by
  obtain ⟨line, hmem, hline⟩ := h
  rw [readGame]
  split
  · rename_i hd
    have := List.dropWhile_eq_nil_iff.1 hd line hmem
    rw [hline] at this
    simp at this
  · rename_i hd
    rw [← hd, gameFrom_dropWhile]

/-- The lines before a game make no difference to it. -/
theorem readGame_dropWhile (lines : List Line) :
    readGame (lines.dropWhile isBetweenGames) = readGame lines := by
  rw [readGame, readGame, List.dropWhile_idempotent]

theorem not_isBetweenGames_of_dropWhile {lines rest : List Line} {line : Line}
    (h : lines.dropWhile isBetweenGames = line :: rest) : isBetweenGames line = false := by
  have hl := List.head?_dropWhile_not isBetweenGames lines
  rw [h] at hl
  exact hl

/-- The lines of a movetext that no tags precede. -/
theorem readTags_of_dropWhile {lines rest : List Line} {line : Line}
    (hd : lines.dropWhile isBetweenGames = line :: rest) (ho : opensTag line = false) :
    readTags lines = ⟨[], none, line :: rest⟩ := by
  have hline := not_isBetweenGames_of_dropWhile hd
  rw [isBetweenGames] at hline
  rw [← readTags_dropWhile, hd, readTags, if_neg (by simp [ho]), if_neg (by simp [hline])]

/-! ## Texts without tags -/

theorem isBetweenGames_of_isBlankText {line : Line} (h : isBlankText line = true) :
    isBetweenGames line = true := by rw [isBetweenGames, h]; rfl

theorem dropWhile_lines_of_isBlankText {t : Text} (h : isBlankText t = true) :
    (lines t).dropWhile isBetweenGames = [] := by
  rw [List.dropWhile_eq_nil_iff]
  intro line hline
  refine isBetweenGames_of_isBlankText ?_
  rw [isBlankText, List.all_eq_true] at h ⊢
  intro c hc
  refine h c ?_
  rw [← flatten_lines t]
  exact List.mem_flatten.2 ⟨line, hline, hc⟩

/-- A text of white space holds no game. -/
theorem readGame_of_isBlankText {t : Text} (h : isBlankText t = true) :
    readGame (lines t) = none := by
  rw [readGame, dropWhile_lines_of_isBlankText h]

/-- The first line of a text that starts quietly and belongs to a game opens no tag pair. -/
theorem dropWhile_lines_of_startsQuietly {t : Text} (h : StartsQuietly t)
    (hb : isBlankText t = false) :
    ∃ line rest, (lines t).dropWhile isBetweenGames = line :: rest ∧ opensTag line = false := by
  induction hn : t.length using Nat.strongRecOn generalizing t with
  | ind n ih =>
    have hne : t ≠ [] := by
      rintro rfl
      simp [isBlankText] at hb
    obtain ⟨u, hu, hl⟩ := firstLine_append_rest t
    -- behind a line of white space the text starts quietly again
    rw [lines_of_ne_nil hne]
    by_cases hf : isBlankText (firstLine t) = true
    · have hlt : u.length < n := by
        have := congrArg List.length hu
        have := List.length_pos_iff.2 (firstLine_ne_nil hne)
        rw [List.length_append] at *
        omega
      rw [List.dropWhile_cons_of_pos (isBetweenGames_of_isBlankText hf), hl]
      refine ih u.length hlt ?_ ?_ rfl
      · rw [← hu] at h
        exact (startsQuietly_append hf).1 h
      · cases hub : isBlankText u with
        | false => rfl
        | true =>
          rw [← hu] at hb
          rw [isBlankText_append.2 ⟨hf, hub⟩] at hb
          simp at hb
    · refine ⟨firstLine t, laterLines t, List.dropWhile_cons_of_neg ?_, h.opensTag_firstLine⟩
      simp [isBetweenGames, hf, h.isEscapeLine_firstLine]

/-- A text that starts quietly holds no tags, and its movetext starts with it. -/
theorem readTags_of_startsQuietly {t : Text} (h : StartsQuietly t) (hb : isBlankText t = false) :
    ∃ body, readTags (lines t) = ⟨[], none, body⟩
      ∧ scanLines .start body = scanText .start [] t := by
  obtain ⟨line, rest, hd, ho⟩ := dropWhile_lines_of_startsQuietly h hb
  refine ⟨line :: rest, readTags_of_dropWhile hd ho, ?_⟩
  rw [← hd, scanLines_dropWhile rfl, scanLines_lines rfl h]

/-- Such a text has a line that belongs to a game. -/
theorem exists_not_isBetweenGames {t : Text} (h : StartsQuietly t) (hb : isBlankText t = false) :
    ∃ line ∈ lines t, isBetweenGames line = false := by
  obtain ⟨line, rest, hd, _⟩ := dropWhile_lines_of_startsQuietly h hb
  refine ⟨line, ?_, not_isBetweenGames_of_dropWhile hd⟩
  refine (List.dropWhile_suffix isBetweenGames).subset ?_
  rw [hd]
  exact List.mem_cons_self

/-- The game of a movetext that has been scanned, without tags. -/
def untagged (m : Movetext) : Transcript :=
  ⟨.beginTags :: .beginMovetext :: m.events
    ++ (if (gameError none m.ending).isNone then [.endGame] else []), gameError none m.ending⟩

/-- **A text that starts quietly is read as a movetext.** -/
theorem readGame_of_startsQuietly {t : Text} (h : StartsQuietly t) (hb : isBlankText t = false) :
    readGame (lines t)
      = some (untagged (scanText .start [] t), (scanText .start [] t).rest) := by
  obtain ⟨body, htags, hscan⟩ := readTags_of_startsQuietly h hb
  rw [readGame_of_exists (exists_not_isBetweenGames h hb), gameFrom, htags]
  simp only [hscan]
  rfl

end Scoresheet.Pgn
