import Scoresheet.Proofs.Pgn.Boundary

/-!
# Lines that make no difference

Lines of white space and lines that start with a percent sign belong to no game. Outside comments
such a line may be put in anywhere: before a game, among its tags, into its movetext or into a
variation that is still open.

What comes of it is a matter of where the game in front of the line ends. Either the game ends
before the line is reached, and then it is the same whatever stands there
(`scanLines_insert_or_endsWithin`), or it goes on over the line, which does nothing to it. So all
games stay what they are (`readGames_insert`, `games_unchanged_by_spare_line`).
-/

namespace Scoresheet.Pgn

open Text

variable {line : Line}

/-! ## One movetext -/

/-- The movetext at the front of the lines ends before their end, so that lines behind them are not
looked at. -/
def EndsWithin (s : Cursor) (lines : List Line) : Prop :=
  ∀ more, scanLines s (lines ++ more) =
    { scanLines s lines with rest := (scanLines s lines).rest ++ more }

/-- **A line that belongs to no game does nothing to a movetext** in which no comment is open there,
unless the movetext has ended before. -/
theorem scanLines_insert_or_endsWithin (hline : isBetweenGames line = true)
    (back front : List Line) : ∀ {s : Cursor}, (scanLines s front).ending ≠ .unterminatedComment →
      scanLines s (front ++ line :: back) = scanLines s (front ++ back) ∨ EndsWithin s front := by
  unfold EndsWithin
  induction front with
  | nil =>
    intro s h
    have hs : s.comment = none := by
      cases hc : s.comment with
      | none => rfl
      | some body => simp [scanLines, hc] at h
    exact Or.inl (scanLines_of_isBetweenGames hs hline back)
  | cons first front ih =>
    intro s h
    simp only [List.cons_append]
    rw [scanLines] at h
    simp only [scanLines]
    by_cases hopen : (s.comment.isNone && opensTag first) = true
    · simp only [if_pos hopen]
      exact Or.inr fun more => rfl
    · simp only [if_neg hopen] at h ⊢
      by_cases hescape : (s.comment.isNone && isEscapeLine first) = true
      · simp only [if_pos hescape] at h ⊢
        exact ih h
      · simp only [if_neg hescape] at h ⊢
        -- only a line that is scanned to its end leads on to the lines after it
        rcases hscan : scanLine s [] first with ⟨events, s' | rest | e⟩
        · rw [hscan] at h
          refine (ih (s := s') h).imp (fun hsame => ?_) fun hends more => ?_
          · simp only [hsame]
          · simp only [hends more]
            rfl
        · exact Or.inr fun more => rfl
        · exact Or.inr fun more => rfl

/-! ## One game -/

/-- Among tags a line that belongs to no game does nothing. -/
theorem readTags_insert (hline : isBetweenGames line = true) (back : List Line) {front : List Line}
    (hbody : (readTags front).body = []) :
    readTags (front ++ line :: back) = readTags (front ++ back) := by
  induction front with
  | nil =>
    have hopen := opensTag_of_isBetweenGames hline
    rw [List.nil_append, List.nil_append, readTags, if_neg (by simp [hopen]),
      if_pos (by rwa [isBetweenGames] at hline)]
  | cons first front ih =>
    rw [List.cons_append, List.cons_append]
    rw [readTags] at hbody ⊢
    rw [readTags]
    by_cases hopen : opensTag first = true
    · rw [if_pos hopen] at hbody
      rw [if_pos hopen, if_pos hopen]
      have hbody : (readTags front).body = [] := by
        cases ht : Tag.readLine? (trim first) with
        | none =>
          rw [ht] at hbody
          exact hbody
        | some tags =>
          rw [ht] at hbody
          exact hbody
      rw [ih hbody]
    · rw [if_neg hopen] at hbody
      rw [if_neg hopen, if_neg hopen]
      by_cases hbetween : (isBlankText first || isEscapeLine first) = true
      · rw [if_pos hbetween] at hbody
        rw [if_pos hbetween, if_pos hbetween, ih hbody]
      · rw [if_neg hbetween] at hbody
        simp at hbody

/-- **A game is the same with a line put in** that belongs to no game, or it ends before that line
and is the same whatever follows. -/
theorem gameFrom_insert (hline : isBetweenGames line = true) (back : List Line) {front : List Line}
    (hclosed : (scanLines .start (readTags front).body).ending ≠ .unterminatedComment) :
    gameFrom (front ++ line :: back) = gameFrom (front ++ back) ∨
      ∀ more, gameFrom (front ++ more) = ((gameFrom front).1, (gameFrom front).2 ++ more) := by
  by_cases hbody : (readTags front).body = []
  · refine Or.inl ?_
    rw [gameFrom, gameFrom, readTags_insert hline back hbody]
  · refine (scanLines_insert_or_endsWithin hline back _ hclosed).imp (fun hsame => ?_)
      fun hends more => ?_
    · simp only [gameFrom, readTags_append_of_body _ _ hbody, hsame]
    · simp only [gameFrom, readTags_append_of_body _ _ hbody, hends more]

/-! ## All games -/

/-- A comment is open at the end of the lines. -/
def LeavesCommentOpen (lines : List Line) : Prop :=
  ∃ t ∈ readGames lines, t.error = some (.malformed .unterminatedComment)

/-- What is left behind the first game leaves no comment open either. -/
theorem not_leavesCommentOpen_rest {lines rest : List Line} {t : Transcript}
    (h : readGame lines = some (t, rest)) (hover : t.isOversized = false)
    (hclosed : ¬LeavesCommentOpen lines) : ¬LeavesCommentOpen rest := by
  rintro ⟨u, hu, herror⟩
  refine hclosed ⟨u, ?_, herror⟩
  rw [readGames_of_some h, hover]
  exact List.mem_cons_of_mem _ hu

/-- The first game has read its comments to their ends. -/
theorem ending_of_not_leavesCommentOpen {lines rest : List Line} {t : Transcript}
    (h : readGame lines = some (t, rest)) (hclosed : ¬LeavesCommentOpen lines) :
    (scanLines .start (readTags lines).body).ending ≠ .unterminatedComment := by
  intro hending
  have ht : t = (gameFrom lines).1 := by rw [(gameFrom_of_readGame h).1]
  refine hclosed ⟨t, ?_, ?_⟩
  · rw [readGames_of_some h]
    exact List.mem_cons_self
  · rw [ht, gameFrom]
    simp only [hending, gameError]

/-- **All games are the same with a line put in** that belongs to none of them, unless a comment is
open there. -/
theorem readGames_insert (hline : isBetweenGames line = true) (back : List Line)
    {front : List Line} (hclosed : ¬LeavesCommentOpen front) :
    readGames (front ++ line :: back) = readGames (front ++ back) := by
  -- on what remains to be read in front of the line
  induction hn : remaining front using Nat.strongRecOn generalizing front with
  | ind n ih =>
    cases h : readGame front with
    | none =>
      have hall : ∀ l ∈ front, isBetweenGames l = true := by
        intro l hl
        cases hb : isBetweenGames l with
        | true => rfl
        | false =>
          rw [readGame_of_exists ⟨l, hl, hb⟩] at h
          cases h
      refine readGames_congr ?_
      rw [readGame, readGame, List.dropWhile_append_of_pos hall, List.dropWhile_append_of_pos hall,
        List.dropWhile_cons_of_pos hline]
    | some r =>
      obtain ⟨t, rest⟩ := r
      obtain ⟨hgame, l, hl, hbetween⟩ := gameFrom_of_readGame h
      have hread : ∀ more, readGame (front ++ more) = some (gameFrom (front ++ more)) :=
        fun more => readGame_of_exists ⟨l, List.mem_append_left _ hl, hbetween⟩
      rcases gameFrom_insert hline back (ending_of_not_leavesCommentOpen h hclosed) with
        hsame | hends
      · exact readGames_congr (by rw [hread, hread, hsame])
      · rw [hgame] at hends
        rw [readGames_of_some ((hread _).trans (congrArg some (hends _))),
          readGames_of_some ((hread _).trans (congrArg some (hends _)))]
        by_cases hover : t.isOversized = true
        · rw [if_pos hover, if_pos hover]
        · rw [if_neg hover, if_neg hover]
          have hlt : remaining rest < n := hn ▸ remaining_readGame_lt h
          have hrest := not_leavesCommentOpen_rest h (Bool.eq_false_iff.2 hover) hclosed
          rw [ih _ hlt hrest rfl]

/-! ## Texts -/

/-- A line that belongs to no game still belongs to none with the line feed that ends it. -/
theorem isBetweenGames_append_newline {t : Text}
    (h : t.head? = some '%' ∨ isBlankText t = true) : isBetweenGames (t ++ ['\n']) = true := by
  rw [isBetweenGames, Bool.or_eq_true]
  rcases h with h | h
  · obtain ⟨cs, rfl⟩ : ∃ cs, t = '%' :: cs := List.head?_eq_some_iff.1 h
    exact Or.inr rfl
  · exact Or.inl (isBlankText_append.2 ⟨h, rfl⟩)

/-- **Escape lines and lines of white space are transparent.** Such a line may be put in at the
start of any line of a text, unless a comment is open there: the games of the text are the same,
with all their events and with what is wrong with them. -/
theorem games_unchanged_by_spare_line {front spare : Text} (back : Text)
    (hfront : front = [] ∨ front.getLast? = some '\n') (hclosed : ¬LeavesCommentOpen (lines front))
    (hline : '\n' ∉ spare) (hspare : spare.head? = some '%' ∨ isBlankText spare = true) :
    readGames (lines (front ++ (spare ++ '\n' :: back))) = readGames (lines (front ++ back)) := by
  rw [lines_append hfront, lines_append hfront, lines_append_of_not_mem hline]
  exact readGames_insert (isBetweenGames_append_newline hspare) (lines back) hclosed

/-- A game that breaks off in a variation. -/
def openVariation : Text := "[White \"A\"]\n\n1. e4 \x7bgood\x7d (1. d4\n".toList

/-- A line that would end the game and open a comment if it counted. -/
def escapedResult : Text := "% 1-0 ) \x7b [White \"B\"]".toList

theorem games_unchanged_by_spare_line_openVariation :
    openVariation.getLast? = some '\n' ∧ ¬LeavesCommentOpen (lines openVariation) ∧
    '\n' ∉ escapedResult ∧ escapedResult.head? = some '%' ∧
    readGames (lines (openVariation ++ (escapedResult ++ '\n' :: "d5) e5 *\n".toList)))
      = readGames (lines (openVariation ++ "d5) e5 *\n".toList)) := by
  have hread : (readGame (lines openVariation)).map (fun r => (r.1.error, r.2)) = some (none, []) :=
    by decide +kernel
  have hclosed : ¬LeavesCommentOpen (lines openVariation) := by
    rintro ⟨u, hu, herror⟩
    obtain ⟨⟨t, rest⟩, ht, heq⟩ := Option.map_eq_some_iff.1 hread
    obtain ⟨hnone, rfl⟩ : t.error = none ∧ rest = [] := Prod.mk.inj heq
    rw [readGames_of_some ht, readGames_of_none rfl, ite_self, List.mem_singleton] at hu
    rw [hu, hnone] at herror
    cases herror
  have hfront : openVariation.getLast? = some '\n' := by decide
  have hline : '\n' ∉ escapedResult := by decide
  exact ⟨hfront, hclosed, hline, rfl,
    games_unchanged_by_spare_line _ (Or.inr hfront) hclosed hline (Or.inl rfl)⟩

end Scoresheet.Pgn
