import Scoresheet.Proofs.Pgn.Nesting
import Scoresheet.Proofs.Pgn.TranscriptShape

/-!
# Leaving out malformed tag lines

A malformed tag line gives no tag, not even from groups that stand before the fault in it. So lines
of which some malformed tag lines are left out (`Thinned`) have the same tags and the same movetext.
Of the game at their front only the diagnosis can differ: `Thinned.gameFrom_congr` says that it
tells the same story and leaves the same lines to the games after it.
-/

namespace Scoresheet.Pgn

open Text

/-- Lines of which malformed tag lines are left out, any number of those that come before the first
movetext. -/
inductive Thinned : List Line → List Line → Prop
  | rest (lines : List Line) : Thinned lines lines
  | keep {line : Line} {lines kept : List Line} (hline : precedesMovetext line = true)
      (h : Thinned lines kept) : Thinned (line :: lines) (line :: kept)
  | drop {line : Line} {lines kept : List Line} (hline : isMalformedTagLine line = true)
      (h : Thinned lines kept) : Thinned (line :: lines) kept

/-- Lines without any malformed tag line before the first movetext. -/
def withoutMalformedTags (lines : List Line) : List Line :=
  (lines.takeWhile precedesMovetext).filter (!isMalformedTagLine ·)
    ++ lines.dropWhile precedesMovetext

theorem thinned_withoutMalformedTags (lines : List Line) :
    Thinned lines (withoutMalformedTags lines) := by
  unfold withoutMalformedTags
  induction lines with
  | nil => exact .rest []
  | cons line lines ih =>
    by_cases hline : precedesMovetext line = true
    · rw [List.takeWhile_cons_of_pos hline, List.dropWhile_cons_of_pos hline]
      by_cases hmalformed : isMalformedTagLine line = true
      · rw [List.filter_cons_of_neg (by simp [hmalformed])]
        exact .drop hmalformed ih
      · rw [List.filter_cons_of_pos (by simp [hmalformed])]
        exact .keep hline ih
    · rw [List.takeWhile_cons_of_neg hline, List.dropWhile_cons_of_neg hline]
      exact .rest _

namespace Thinned

variable {lines kept : List Line}

theorem sublist (h : Thinned lines kept) : kept.Sublist lines := by
  induction h with
  | rest lines => exact List.Sublist.refl lines
  | keep _ _ ih => exact ih.cons_cons _
  | drop _ _ ih => exact ih.cons _

/-- **The tags and the movetext are the same.** -/
theorem readTags_congr (h : Thinned lines kept) :
    (readTags kept).tags = (readTags lines).tags ∧
      (readTags kept).body = (readTags lines).body := by
  induction h with
  | rest lines => exact ⟨rfl, rfl⟩
  | @keep line lines kept hline _ ih =>
    by_cases hopen : opensTag line = true
    · rw [readTags, readTags, if_pos hopen, if_pos hopen]
      cases Tag.readLine? (trim line) with
      | some tags => exact ⟨congrArg (tags ++ ·) ih.1, ih.2⟩
      | none => exact ih
    · have hbetween : (isBlankText line || isEscapeLine line) = true := by
        simpa [precedesMovetext, isBetweenGames, hopen] using hline
      rw [readTags, readTags, if_neg hopen, if_neg hopen, if_pos hbetween, if_pos hbetween]
      exact ih
  | @drop line lines kept hline _ ih =>
    obtain ⟨hopen, hread⟩ : opensTag line = true ∧ Tag.readLine? (trim line) = none := by
      simpa [isMalformedTagLine] using hline
    rw [readTags, if_pos hopen, hread]
    exact ih

end Thinned

namespace Transcript

/-- The events of a game up to its end. -/
def story (t : Transcript) : List Event := t.events.takeWhile (· != .endGame)

/-- The numeral of the game that could not be converted. -/
def oversized? (t : Transcript) : Option OversizedNumeral :=
  match t.error with
  | some (.oversizedNag n) => some n
  | _ => none

theorem isOversized_eq (t : Transcript) : t.isOversized = t.oversized?.isSome := by
  unfold isOversized oversized?
  rcases t.error with _ | _ | _ <;> rfl

/-- Two games are told alike: they differ at most in a syntax fault and in whether an end
follows. -/
structure ToldAlike (g g' : Transcript) : Prop where
  story : g.story = g'.story
  oversized? : g.oversized? = g'.oversized?

variable {t : Transcript}

theorem story_of_events {events ending : List Event} (ht : t.events = events ++ ending)
    (hevents : ∀ e ∈ events, e ≠ .endGame) (hending : ending = [.endGame] ∨ ending = []) :
    t.story = events := by
  have hall : ∀ e ∈ events, (e != .endGame) = true := fun e he => by simpa using hevents e he
  rw [story, ht, List.takeWhile_append_of_pos hall]
  rcases hending with rfl | rfl <;> simp

/-- A framed transcript is its story, which starts with the first event of a game, and the end if
nothing was wrong. -/
theorem IsFramed.exists_story (ht : t.IsFramed) : ∃ inner, (∀ e ∈ inner, e.isInner = true) ∧
    t.story = .beginTags :: inner ∧
    t.events = t.story ++ if t.error.isNone then [.endGame] else [] := by
  obtain ⟨inner, hinner, hevents⟩ := ht
  have hstory : t.story = .beginTags :: inner := by
    refine story_of_events hevents (fun e he => ?_) (by split <;> simp)
    rintro rfl
    rcases List.mem_cons.1 he with he | he
    · cases he
    · exact absurd (hinner _ he) (by decide)
  exact ⟨inner, hinner, hstory, by rw [hstory]; exact hevents⟩

end Transcript

/-- The story of a game is that of its tags and its movetext. -/
theorem story_gameFrom (lines : List Line) :
    (gameFrom lines).1.story =
      .beginTags :: (readTags lines).tags.map (fun tag => .tag tag.key tag.value)
        ++ .beginMovetext :: (scanLines .start (readTags lines).body).events := by
  refine Transcript.story_of_events rfl (fun e he => ?_) (by split <;> simp)
  rintro rfl
  simp only [List.mem_append, List.mem_cons, List.mem_map, reduceCtorEq, false_or, and_false,
    exists_false] at he
  exact absurd (ofMovetext_scanLines _ _ he) (by decide)

theorem oversized?_gameFrom (lines : List Line) :
    (gameFrom lines).1.oversized? =
      match (scanLines .start (readTags lines).body).ending with
      | .oversizedNag n => some n
      | _ => none := by
  have herror : (gameFrom lines).1.error
      = gameError (readTags lines).fault (scanLines .start (readTags lines).body).ending := rfl
  rw [Transcript.oversized?, herror]
  cases (scanLines .start (readTags lines).body).ending with
  | complete => cases (readTags lines).fault <;> rfl
  | unterminatedComment => rfl
  | oversizedNag n => rfl

/-- The game is told alike, and the same lines are left to the games after it. -/
theorem Thinned.gameFrom_congr {lines kept : List Line} (h : Thinned lines kept) :
    (gameFrom lines).1.ToldAlike (gameFrom kept).1 ∧ (gameFrom lines).2 = (gameFrom kept).2 := by
  obtain ⟨htags, hbody⟩ := h.readTags_congr
  refine ⟨⟨?_, ?_⟩, ?_⟩
  · rw [story_gameFrom, story_gameFrom, htags, hbody]
  · rw [oversized?_gameFrom, oversized?_gameFrom, hbody]
  · rw [gameFrom, gameFrom, hbody]

/-- **The first games are told alike**, and the same lines are left behind them. -/
theorem Thinned.readGame_congr {lines kept : List Line} (h : Thinned lines kept)
    (hsome : ∃ line ∈ kept, isBetweenGames line = false) :
    ∃ g g' rest, readGame lines = some (g, rest) ∧ readGame kept = some (g', rest) ∧
      g.ToldAlike g' ∧ g.IsFramed ∧ g'.IsFramed := by
  obtain ⟨line, hmem, hline⟩ := hsome
  obtain ⟨halike, hrest⟩ := h.gameFrom_congr
  refine ⟨(gameFrom lines).1, (gameFrom kept).1, (gameFrom lines).2,
    readGame_of_exists ⟨line, h.sublist.subset hmem, hline⟩, ?_, halike, isFramed_gameFrom lines,
    isFramed_gameFrom kept⟩
  rw [readGame_of_exists ⟨line, hmem, hline⟩, hrest]

end Scoresheet.Pgn
