import Scoresheet.Proofs.Pgn.GameText

/-!
# Games do not interfere across boundaries

Lines are read game by game, and what one game leaves open could swallow the next one. Two
conditions rule that out. The lines in front are to be `Severable`: no comment is open at their end
and their last game has reached its movetext. The lines behind are to start afresh: the first of
them that belongs to a game opens a tag pair.

`scanLines_append` follows one movetext over the boundary, whatever variations, junk or words are
left over in front of it; `readGames_append` carries this over to all games of the lines.
-/

namespace Scoresheet.Pgn

open Text

/-! ## All games of a list of lines -/

theorem readGames_of_none {lines : List Line} (h : readGame lines = none) :
    readGames lines = [] := by
  rw [readGames]
  split
  · rfl
  · rename_i hs
    rw [h] at hs
    simp at hs

theorem readGames_of_some {lines rest : List Line} {t : Transcript}
    (h : readGame lines = some (t, rest)) :
    readGames lines = t :: if t.isOversized then [] else readGames rest := by
  rw [readGames]
  split
  · rename_i hs
    rw [h] at hs
    simp at hs
  · rename_i hs
    rw [h] at hs
    simp only [Option.some.injEq, Prod.mk.injEq] at hs
    rw [hs.1, hs.2]

/-- All games depend only on what is read next. -/
theorem readGames_congr {lines lines' : List Line} (h : readGame lines = readGame lines') :
    readGames lines = readGames lines' := by
  cases hr : readGame lines with
  | none =>
    have hr' : readGame lines' = none := by rw [← h, hr]
    rw [readGames_of_none hr, readGames_of_none hr']
  | some r =>
    obtain ⟨t, rest⟩ := r
    have hr' : readGame lines' = some (t, rest) := by rw [← h, hr]
    rw [readGames_of_some hr, readGames_of_some hr']

/-- The tag sections of the games of a list of lines. -/
def tagSections (lines : List Line) : List TagSection :=
  match _h : readGame lines with
  | none => []
  | some (t, rest) => readTags lines :: if t.isOversized then [] else tagSections rest
termination_by remaining lines
decreasing_by exact remaining_readGame_lt _h

theorem tagSections_of_some {lines rest : List Line} {t : Transcript}
    (h : readGame lines = some (t, rest)) :
    tagSections lines = readTags lines :: if t.isOversized then [] else tagSections rest := by
  rw [tagSections]
  split
  · rename_i hs
    rw [h] at hs
    simp at hs
  · rename_i hs
    rw [h] at hs
    simp only [Option.some.injEq, Prod.mk.injEq] at hs
    rw [hs.1, hs.2]

theorem tagSections_nil : tagSections [] = [] := by
  rw [tagSections]
  rfl

/-! ## What a line gives back -/

/-- What a line gives back is its end from a bracket on. -/
theorem rest_of_nextGame {s : Cursor} {word : Text} {line rest : Line} {events : List Event}
    (h : scanLine s word line = ⟨events, .nextGame rest⟩) :
    rest <:+ line ∧ ∃ cs, rest = '[' :: cs := by
  induction line generalizing s word events with
  | nil =>
    rw [scanLine] at h
    split at h <;> simp at h
  | cons c cs ih =>
    have later : ∀ {s word events}, scanLine s word cs = ⟨events, .nextGame rest⟩ →
        rest <:+ c :: cs ∧ ∃ cs', rest = '[' :: cs' :=
      fun hscan => (ih hscan).imp_left fun hsuffix => hsuffix.trans (List.suffix_cons c cs)
    have step : ∀ {s word pre}, (scanLine s word cs).after pre = ⟨events, .nextGame rest⟩ →
        rest <:+ c :: cs ∧ ∃ cs', rest = '[' :: cs' := by
      intro s word pre hafter
      rw [LineScan.after, LineScan.mk.injEq] at hafter
      have hscan : scanLine s word cs = ⟨(scanLine s word cs).events, .nextGame rest⟩ := by
        rw [← hafter.2]
      exact later hscan
    rw [scanLine] at h
    split at h
    · split at h
      · exact step h
      · exact later h
    · split at h
      · rename_i hbracket
        simp only [Bool.and_eq_true, beq_iff_eq] at hbracket
        simp only [LineScan.mk.injEq, LineStop.nextGame.injEq] at h
        rw [← h.2]
        exact ⟨List.suffix_rfl, cs, by rw [hbracket.2]⟩
      · split at h
        · split at h
          · simp at h
          · split at h
            · simp at h
            · exact step h
        · exact later h

theorem opensTag_of_nextGame {s : Cursor} {word : Text} {line rest : Line} {events : List Event}
    (h : scanLine s word line = ⟨events, .nextGame rest⟩) : opensTag rest = true := by
  obtain ⟨_, cs, rfl⟩ := rest_of_nextGame h
  rw [opensTag, trimLeft_cons_of_not_isBlank (by decide)]
  rfl

/-! ## Boundaries -/

/-- Lines that leave nothing open for the lines behind them. -/
structure Severable (lines : List Line) : Prop where
  readable : ∀ t ∈ readGames lines, t.isOversized = false
  /-- No comment is open at the end. -/
  isClosed : ∀ t ∈ readGames lines, t.error ≠ some (.malformed .unterminatedComment)
  /-- The last game has a line after its tags. -/
  hasMovetext : ∀ s, (tagSections lines).getLast? = some s → s.body ≠ []

/-- Lines of which the first that belongs to a game opens a tag pair. -/
def StartsAfresh (lines : List Line) : Prop :=
  ∀ line, (lines.dropWhile isBetweenGames).head? = some line → opensTag line = true

/-- At the start of a game no movetext goes on. -/
theorem scanLines_of_startsAfresh {s : Cursor} (hs : s.comment = none) {lines : List Line}
    (h : StartsAfresh lines) :
    scanLines s lines = ⟨[], .complete, lines.dropWhile isBetweenGames⟩ := by
  rw [← scanLines_dropWhile hs]
  cases hd : lines.dropWhile isBetweenGames with
  | nil => simp [scanLines, hs]
  | cons line rest =>
    have ho : opensTag line = true := h line (by rw [hd]; rfl)
    rw [scanLines, if_pos (by simp [hs, ho])]

/-- **A movetext that is complete at a boundary ends there**: what is read next is what the lines
behind the boundary start with. -/
theorem scanLines_append {more : List Line} (hmore : StartsAfresh more) (lines : List Line) :
    ∀ {s : Cursor}, (scanLines s lines).ending = .complete →
      ∃ rest, scanLines s (lines ++ more) = ⟨(scanLines s lines).events, .complete, rest⟩
        ∧ readGame rest = readGame ((scanLines s lines).rest ++ more) := by
  induction lines with
  | nil =>
    intro s h
    -- no comment is open, so the first tag pair behind the boundary ends the movetext
    have hs : s.comment = none := by
      cases hc : s.comment with
      | none => rfl
      | some body => simp [scanLines, hc] at h
    refine ⟨more.dropWhile isBetweenGames, ?_, ?_⟩
    · rw [List.nil_append, scanLines_of_startsAfresh hs hmore]
      simp [scanLines, hs]
    · rw [readGame_dropWhile]
      simp [scanLines, hs]
  | cons line lines ih =>
    intro s h
    rw [List.cons_append]
    rw [scanLines] at h ⊢
    rw [scanLines]
    split
    · exact ⟨line :: (lines ++ more), rfl, rfl⟩
    · rename_i hopen
      rw [if_neg hopen] at h
      split
      · rename_i hescape
        rw [if_pos hescape] at h
        exact ih h
      · rename_i hescape
        rw [if_neg hescape] at h
        -- the three ways in which the scan of a line ends
        rcases hscan : scanLine s [] line with ⟨events, s' | rest | e⟩
        · rw [hscan] at h
          obtain ⟨rest, hrest, hread⟩ := ih (s := s') h
          exact ⟨rest, by simp only [hrest]; rfl, hread⟩
        · exact ⟨rest :: (lines ++ more), rfl, rfl⟩
        · rw [hscan] at h
          simp at h

/-- Among tags the lines behind a boundary are not looked at, if a movetext comes before it. -/
theorem readTags_append_of_body (more : List Line) (lines : List Line) :
    (readTags lines).body ≠ [] →
      readTags (lines ++ more) = { readTags lines with body := (readTags lines).body ++ more } := by
  induction lines with
  | nil =>
    intro h
    exact absurd rfl h
  | cons line lines ih =>
    intro h
    rw [List.cons_append]
    rw [readTags] at h ⊢
    rw [readTags]
    split
    · rename_i hopen
      rw [if_pos hopen] at h
      cases ht : Tag.readLine? (trim line) with
      | none =>
        rw [ht] at h
        simp only [ih h]
      | some tags =>
        rw [ht] at h
        simp only [ih h]
    · rename_i hopen
      rw [if_neg hopen] at h
      split
      · rename_i hbetween
        rw [if_pos hbetween] at h
        exact ih h
      · rfl

/-! ## One game -/

theorem gameFrom_of_readGame {lines : List Line} {r : Transcript × List Line}
    (h : readGame lines = some r) :
    gameFrom lines = r ∧ ∃ line ∈ lines, isBetweenGames line = false := by
  have hne : lines.dropWhile isBetweenGames ≠ [] := by
    intro hd
    simp [readGame, hd] at h
  have hline : ∃ line ∈ lines, isBetweenGames line = false := by
    by_contra hall
    refine hne (List.dropWhile_eq_nil_iff.2 fun line hline => ?_)
    cases hb : isBetweenGames line with
    | true => rfl
    | false => exact absurd ⟨line, hline, hb⟩ hall
  refine ⟨?_, hline⟩
  rw [readGame_of_exists hline, Option.some.injEq] at h
  exact h

/-- Every game is read off the lines from some place on. -/
theorem exists_gameFrom_of_mem_readGames {t : Transcript} {lines : List Line}
    (h : t ∈ readGames lines) : ∃ rest, (gameFrom rest).1 = t := by
  induction hn : remaining lines using Nat.strongRecOn generalizing lines with
  | ind n ih =>
    cases hr : readGame lines with
    | none =>
      rw [readGames_of_none hr] at h
      simp at h
    | some r =>
      obtain ⟨u, rest⟩ := r
      rw [readGames_of_some hr] at h
      rcases List.mem_cons.1 h with rfl | h
      · exact ⟨lines, by rw [(gameFrom_of_readGame hr).1]⟩
      · by_cases hover : u.isOversized = true
        · simp [hover] at h
        · rw [if_neg hover] at h
          exact ih (remaining rest) (hn ▸ remaining_readGame_lt hr) h rfl

/-- A game with neither fault has been read to the end of its movetext. -/
theorem ending_of_gameFrom {lines rest : List Line} {t : Transcript}
    (h : gameFrom lines = (t, rest)) (hreadable : t.isOversized = false)
    (hclosed : t.error ≠ some (.malformed .unterminatedComment)) :
    (scanLines .start (readTags lines).body).ending = .complete := by
  have herror : t.error
      = gameError (readTags lines).fault (scanLines .start (readTags lines).body).ending := by
    rw [gameFrom] at h
    rw [← (Prod.mk.inj h).1]
  cases he : (scanLines .start (readTags lines).body).ending with
  | complete => rfl
  | unterminatedComment =>
    rw [he] at herror
    exact absurd herror hclosed
  | oversizedNag e =>
    rw [he] at herror
    simp [Transcript.isOversized, herror, gameError] at hreadable

/-- **A game that has reached its movetext is the same in front of a boundary**, and what is read
after it is what is left of its lines with the lines behind the boundary. -/
theorem readGame_append {lines rest more : List Line} {t : Transcript}
    (hmore : StartsAfresh more) (h : readGame lines = some (t, rest))
    (hreadable : t.isOversized = false)
    (hclosed : t.error ≠ some (.malformed .unterminatedComment))
    (hbody : (readTags lines).body ≠ []) :
    ∃ rest', readGame (lines ++ more) = some (t, rest')
      ∧ readGame rest' = readGame (rest ++ more) := by
  obtain ⟨hgame, line, hmem, hline⟩ := gameFrom_of_readGame h
  have hending := ending_of_gameFrom hgame hreadable hclosed
  obtain ⟨rest', hscan, hread⟩ := scanLines_append hmore _ hending
  rw [gameFrom] at hgame
  obtain ⟨ht, hrest⟩ := Prod.mk.inj hgame
  refine ⟨rest', ?_, by rw [hread, hrest]⟩
  rw [readGame_of_exists ⟨line, List.mem_append_left _ hmem, hline⟩, gameFrom,
    readTags_append_of_body more lines hbody]
  simp only [hscan]
  rw [← ht, hending]

/-- A game without a movetext takes all lines. -/
theorem rest_of_body_eq_nil {lines rest : List Line} {t : Transcript}
    (h : readGame lines = some (t, rest)) (hbody : (readTags lines).body = []) : rest = [] := by
  have hgame := (gameFrom_of_readGame h).1
  rw [gameFrom, hbody] at hgame
  exact (Prod.mk.inj hgame).2.symm

/-! ## All games -/

namespace Severable

variable {lines rest : List Line} {t : Transcript}

theorem body_ne_nil (hs : Severable lines) (h : readGame lines = some (t, rest)) :
    (readTags lines).body ≠ [] := by
  intro hbody
  obtain rfl := rest_of_body_eq_nil h hbody
  refine hs.hasMovetext (readTags lines) ?_ hbody
  rw [tagSections_of_some h, tagSections_nil, ite_self]
  rfl

/-- What is left behind the first game is severable again. -/
theorem behind (hs : Severable lines) (h : readGame lines = some (t, rest)) : Severable rest := by
  have hgames := readGames_of_some h
  have hover : t.isOversized = false :=
    hs.readable t (by rw [hgames]; exact List.mem_cons_self)
  rw [hover, if_neg (by simp)] at hgames
  refine ⟨fun u hu => hs.readable u ?_, fun u hu => hs.isClosed u ?_, fun s hlast => ?_⟩
  · rw [hgames]
    exact List.mem_cons_of_mem _ hu
  · rw [hgames]
    exact List.mem_cons_of_mem _ hu
  · refine hs.hasMovetext s ?_
    rw [tagSections_of_some h, hover, if_neg (by simp), List.getLast?_cons, hlast]
    rfl

end Severable

/-- **The games of lines in front of a boundary and behind it are the games of the two.** -/
theorem readGames_append {more : List Line} (hmore : StartsAfresh more) {lines : List Line}
    (hs : Severable lines) : readGames (lines ++ more) = readGames lines ++ readGames more := by
  -- on what remains to be read: behind its first game the front is severable again
  induction hn : remaining lines using Nat.strongRecOn generalizing lines with
  | ind n ih =>
    cases h : readGame lines with
    | none =>
      have hall : ∀ line ∈ lines, isBetweenGames line = true := by
        intro line hline
        cases hb : isBetweenGames line with
        | true => rfl
        | false =>
          rw [readGame_of_exists ⟨line, hline, hb⟩] at h
          simp at h
      have hread : readGame (lines ++ more) = readGame more := by
        rw [readGame, readGame, List.dropWhile_append_of_pos hall]
      rw [readGames_of_none h, readGames_congr hread, List.nil_append]
    | some r =>
      obtain ⟨t, rest⟩ := r
      have hmem : t ∈ readGames lines := by
        rw [readGames_of_some h]
        exact List.mem_cons_self
      have hover := hs.readable t hmem
      obtain ⟨rest', hgame, hnext⟩ :=
        readGame_append hmore h hover (hs.isClosed t hmem) (hs.body_ne_nil h)
      have hlt : remaining rest < n := hn ▸ remaining_readGame_lt h
      rw [readGames_of_some hgame, readGames_of_some h, hover, if_neg (by simp), if_neg (by simp),
        readGames_congr hnext, ih (remaining rest) hlt (hs.behind h) rfl, List.cons_append]

end Scoresheet.Pgn
