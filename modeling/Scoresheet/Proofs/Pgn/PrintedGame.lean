import Scoresheet.Proofs.Pgn.GameText
import Scoresheet.Proofs.Pgn.PrintedMovetext
import Scoresheet.Proofs.Pgn.PrintedTags

/-!
# Printed games are read back

The printer of whole games: lines of tag pairs, a blank line, the movetext and the marker of the
result. `readGame_toText` says that reading undoes printing, for every number of tags and items
and every nesting of variations.
-/

namespace Scoresheet.Pgn

open Text

/-! ## Results -/

/-- The results of a game in their standard spelling. -/
inductive GameResult
  | whiteWins
  | blackWins
  | draw
  | unknown
  deriving DecidableEq, Repr

namespace GameResult

def toText : GameResult → Text
  | whiteWins => ['1', '-', '0']
  | blackWins => ['0', '-', '1']
  | draw => ['1', '/', '2', '-', '1', '/', '2']
  | unknown => ['*']

@[simp] theorem outcomeMarker?_toText (r : GameResult) :
    outcomeMarker? r.toText = some r.toText := by
  cases r <;> rfl

theorem isWordChar_of_mem {r : GameResult} {c : Char} (h : c ∈ r.toText) :
    MoveWord.IsWordChar c :=
  MoveWord.isWordChar_of_mem (by cases r <;> decide) h

theorem readWord_toText (r : GameResult) :
    Cursor.start.readWord r.toText = .ok ([.outcome r.toText], ⟨0, true, none⟩) := by
  have hreads : Cursor.start.readsWords = true := rfl
  rw [Cursor.readWord, if_pos hreads, r.outcomeMarker?_toText]
  rfl

end GameResult

/-! ## Games -/

/-- A game that can be printed. -/
structure PrintedGame where
  tagLines : List TagLine
  /-- White space before the first item, after the blank line. -/
  lead : Blank
  items : Items
  result : GameResult

namespace PrintedGame

/-- The movetext with the marker of the result at its end. -/
def movetext (g : PrintedGame) : Text := g.items.toText ++ (g.result.toText ++ ['\n'])

def toText (g : PrintedGame) : Text :=
  tagText g.tagLines ++ ('\n' :: g.lead.text ++ g.movetext)

def tags (g : PrintedGame) : List Tag := g.tagLines.flatMap TagLine.tags

/-- What a reader is to report about the game. -/
def events (g : PrintedGame) : List Event :=
  .beginTags :: g.tags.map (fun tag => .tag tag.key tag.value)
    ++ .beginMovetext :: g.items.events ++ [.outcome g.result.toText, .endGame]

/-! ## Reading back -/

theorem startsQuietly_result (g : PrintedGame) : StartsQuietly (g.result.toText ++ ['\n']) := by
  cases g.result <;> exact startsQuietly_cons _ (by decide) (by decide) (by decide)

/-- The result ends the movetext. -/
theorem scanText_result (g : PrintedGame) :
    scanText .start [] (g.result.toText ++ ['\n'])
      = ⟨[.outcome g.result.toText], .complete, []⟩ := by
  have hread : Cursor.start.readWord g.result.toText.reverse.reverse
      = .ok ([.outcome g.result.toText], ⟨0, true, none⟩) := by
    rw [List.reverse_reverse, g.result.readWord_toText]
  rw [scanText_wordChars rfl fun c hc => GameResult.isWordChar_of_mem hc,
    scanText_newline [] rfl hread]
  rfl

/-- The blank line and the white space before the first item. -/
def gap (g : PrintedGame) : Text := '\n' :: g.lead.text

theorem isBlankText_gap (g : PrintedGame) : isBlankText g.gap = true :=
  isBlankText_cons.2 ⟨by decide, g.lead.isBlankText_text⟩

/-- Behind the tags a printed game starts quietly. -/
theorem startsQuietly_body (g : PrintedGame) : StartsQuietly (g.gap ++ g.movetext) :=
  (startsQuietly_append g.isBlankText_gap).2 (startsQuietly_items g.items g.startsQuietly_result)

theorem isBlankText_body (g : PrintedGame) : isBlankText (g.gap ++ g.movetext) = false := by
  have hresult : isBlankText g.result.toText = false := by cases g.result <;> decide
  cases h : isBlankText (g.gap ++ g.movetext) with
  | false => rfl
  | true =>
    have hm := (isBlankText_append.1 h).2
    have hr := (isBlankText_append.1 (isBlankText_append.1 hm).2).1
    rw [hresult] at hr
    simp at hr

theorem lines_toText (g : PrintedGame) :
    lines g.toText
      = g.tagLines.map (fun l => l.toText ++ ['\n']) ++ lines (g.gap ++ g.movetext) :=
  lines_tagText g.tagLines _

theorem scanText_body (g : PrintedGame) :
    scanText .start [] (g.gap ++ g.movetext)
      = ⟨g.items.events ++ [.outcome g.result.toText], .complete, []⟩ := by
  have hq := g.startsQuietly_result
  have hmove : StartsQuietly g.movetext := startsQuietly_items g.items hq
  have hitems : scanText .start [] g.movetext
      = (scanText .start [] (g.result.toText ++ ['\n'])).after g.items.events :=
    scanText_items g.items 0 hq
  rw [scanText_blank rfl g.gap _ g.isBlankText_gap hmove, hitems, scanText_result]
  rfl

/-- The tag section ends where the movetext starts. -/
theorem readTags_toText (g : PrintedGame) :
    ∃ body, readTags (lines g.toText) = ⟨g.tags, none, body⟩ ∧
      scanLines .start body = ⟨g.items.events ++ [.outcome g.result.toText], .complete, []⟩ := by
  obtain ⟨body, htags, hscan⟩ := readTags_of_startsQuietly g.startsQuietly_body g.isBlankText_body
  refine ⟨body, ?_, by rw [hscan, g.scanText_body]⟩
  rw [g.lines_toText, readTags_append, htags, List.append_nil]
  rfl

theorem readGame_eq (g : PrintedGame) :
    readGame (lines g.toText) = some (⟨g.events, none⟩, []) := by
  obtain ⟨line, hmem, hline⟩ := exists_not_isBetweenGames g.startsQuietly_body g.isBlankText_body
  obtain ⟨body, htags, hscan⟩ := g.readTags_toText
  have hline : ∃ line ∈ lines g.toText, isBetweenGames line = false := by
    rw [g.lines_toText]
    exact ⟨line, List.mem_append_right _ hmem, hline⟩
  rw [readGame_of_exists hline, gameFrom, htags]
  simp only [hscan]
  simp [events, gameError]

/-- **Reading undoes printing**: the tags, the items and the result are reported in order, and no
text is left for another game. -/
theorem readGame_toText (g : PrintedGame) :
    readGame (lines g.toText) = some (⟨g.events, none⟩, []) ∧ readGame [] = none :=
  ⟨g.readGame_eq, rfl⟩

end PrintedGame

end Scoresheet.Pgn
