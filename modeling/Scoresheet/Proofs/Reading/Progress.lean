import Mathlib.Data.List.Infix
import Scoresheet.Proofs.Pgn.LineReader
import Scoresheet.Proofs.Reading.MalformedTags

/-!
# Reading makes progress

A reader may give text back, so that it is read again. But it gives back one line at most, the end
of the line that it has read last (`LineReader.IsSettled`), and never all of the line that a game
starts with. So every call that finds a game leaves less to be read, whether it comes to the end of
the game or is broken off (`LineReader.Takes.isSettled_and_isProperEnd`), and a text has no more
games than characters (`reading_progresses`).
-/

namespace Scoresheet

open Text Pgn

/-! ## What is left of a text -/

namespace Text

/-- The first text is an end of the second and shorter. -/
structure IsProperEnd (rest t : Text) : Prop where
  suffix : rest <:+ t
  length_lt : rest.length < t.length

/-- Behind a line that has characters all that is left is a proper end. -/
theorem isProperEnd_append {line rest t : Text} (hline : line ≠ []) (h : rest <:+ t) :
    IsProperEnd rest (line ++ t) where
  suffix := h.trans (List.suffix_append line t)
  length_lt := by
    have hle := h.length_le
    have hpos := List.length_pos_iff.2 hline
    rw [List.length_append]
    omega

theorem IsProperEnd.append {rest t : Text} (h : IsProperEnd rest t) (more : Text) :
    IsProperEnd (rest ++ more) (t ++ more) where
  suffix := by
    obtain ⟨before, hbefore⟩ := h.suffix
    exact ⟨before, by rw [← List.append_assoc, hbefore]⟩
  length_lt := by
    have hlt := h.length_lt
    rw [List.length_append, List.length_append]
    omega

theorem IsProperEnd.trans_suffix {rest t u : Text} (h : IsProperEnd rest t) (htu : t <:+ u) :
    IsProperEnd rest u :=
  ⟨h.suffix.trans htu, Nat.lt_of_lt_of_le h.length_lt htu.length_le⟩

end Text

namespace Pgn

/-- What a movetext leaves is an end of its text. -/
theorem flatten_rest_scanLines_suffix (lines : List Line) (s : Cursor) :
    (scanLines s lines).rest.flatten <:+ lines.flatten := by
  induction lines generalizing s with
  | nil =>
    rw [scanLines]
    split <;> exact List.suffix_rfl
  | cons line lines ih =>
    rw [scanLines, List.flatten_cons]
    split
    · exact List.suffix_rfl
    · split
      · exact (ih s).trans (List.suffix_append _ _)
      · split
        · rename_i s' _
          exact (ih s').trans (List.suffix_append _ _)
        · rename_i rest hscan
          obtain ⟨before, hbefore⟩ := (rest_of_nextGame hscan).1
          exact ⟨before, by rw [List.flatten_cons, ← List.append_assoc, hbefore]⟩
        · exact List.suffix_append _ _

/-- Before the result a movetext takes something off a line that has characters, unless the line
opens a tag pair. -/
theorem isProperEnd_rest_scanLines {s : Cursor} {line : Line} (lines : List Line)
    (hs : s.finished = false) (hopen : opensTag line = false) (hline : line ≠ []) :
    IsProperEnd (scanLines s (line :: lines)).rest.flatten (line :: lines).flatten := by
  rw [scanLines, if_neg (by simp [hopen]), List.flatten_cons]
  split
  · exact isProperEnd_append hline (flatten_rest_scanLines_suffix lines s)
  · split
    · rename_i s' _
      exact isProperEnd_append hline (flatten_rest_scanLines_suffix lines s')
    · rename_i rest hscan
      have hrest : IsProperEnd rest line := ⟨(rest_of_nextGame hscan).1, length_rest_lt hs hscan⟩
      exact hrest.append lines.flatten
    · exact isProperEnd_append hline List.suffix_rfl

theorem ne_nil_of_isBetweenGames {line : Line} (h : isBetweenGames line = false) : line ≠ [] := by
  rintro rfl
  cases h

/-- **A game takes something off the front of a text.** -/
theorem isProperEnd_of_readGame {lines rest : List Line} {t : Transcript}
    (h : readGame lines = some (t, rest)) : IsProperEnd rest.flatten lines.flatten := by
  rw [readGame] at h
  split at h
  · cases h
  · rename_i line later hd
    have hline : line ≠ [] := ne_nil_of_isBetweenGames (not_isBetweenGames_of_dropWhile hd)
    have hrest : (scanLines .start (readTags (line :: later)).body).rest = rest :=
      (Prod.mk.inj (Option.some.inj h)).2
    refine IsProperEnd.trans_suffix ?_ (hd ▸ List.dropWhile_suffix isBetweenGames).flatten
    rw [← hrest, body_readTags]
    -- the line that the game starts with is a tag line, or else the first of the movetext
    by_cases hopen : opensTag line = true
    · rw [List.dropWhile_cons_of_pos (by rw [precedesMovetext, hopen]; rfl), List.flatten_cons]
      exact isProperEnd_append hline ((flatten_rest_scanLines_suffix _ _).trans
        (List.dropWhile_suffix precedesMovetext).flatten)
    · rw [List.dropWhile_cons_of_neg
        (by simp [precedesMovetext, hopen, not_isBetweenGames_of_dropWhile hd])]
      exact isProperEnd_rest_scanLines later rfl (Bool.eq_false_iff.2 hopen) hline

/-! ## Readers between calls -/

namespace LineReader

variable {r r' : LineReader}

/-- At most one line has been given back: the end of the line that was read last, from a bracket
on that only white space precedes. -/
structure IsSettled (r : LineReader) : Prop where
  length_pushedBack_le : r.pushedBack.length ≤ 1
  pushedBack : ∀ line ∈ r.pushedBack,
    opensTag line = true ∧ ∃ last, r.lastRead = some last ∧ line <:+ last

theorem isSettled_of_pushedBack_eq_nil (h : r.pushedBack = []) : r.IsSettled :=
  ⟨by simp [h], by simp [h]⟩

/-- Where nothing is held back, one line is given back at most. -/
theorem HasGivenBack.isSettled (h : r.HasGivenBack r') (hr : r.pushedBack = []) :
    r'.IsSettled := by
  cases h with
  | nothing h => exact isSettled_of_pushedBack_eq_nil (List.suffix_nil.1 (hr ▸ h.pushedBack))
  | @line r' last rest h hlast hrest hopen =>
    have hnil : r'.pushedBack = [] := List.suffix_nil.1 (hr ▸ h.pushedBack)
    have hback : (r'.pushBack rest).pushedBack = [rest] := congrArg (rest :: ·) hnil
    refine ⟨by rw [hback]; exact Nat.le_refl 1, fun line hline => ?_⟩
    rw [hback, List.mem_singleton] at hline
    subst hline
    exact ⟨hopen, last, hlast, hrest⟩

/-- The reader that a call leaves which finds a game. Whoever is told of the game may break the call
off at any event. -/
inductive Takes (r : LineReader) : LineReader → Prop
  | whole {g : ToldGame} (h : r.readGame.game = some g) : Takes r r.readGame.reader
  | brokenOff {g : ToldGame} {m : Moment} (h : r.readGame.game = some g) (hm : m ∈ g.moments) :
    Takes r m.reader

/-- The first line that is read is the one that was given back, so that nothing is held back behind
it. -/
theorem Finds.pushedBack_start {g : ToldGame} {line : Line} {start : LineReader}
    (h : r.Finds g line start) (hr : r.IsSettled) : start.pushedBack = [] := by
  have hnext : r.nextLine.2.pushedBack = [] := by
    have hle := hr.length_pushedBack_le
    obtain ⟨_ | ⟨first, _ | ⟨second, pushedBack⟩⟩, _ | ⟨next, unread⟩, last⟩ := r
    all_goals first
      | rfl
      | (simp at hle)
  exact List.suffix_nil.1 (hnext ▸ h.precedes.pushedBack)

/-- **A call that finds a game leaves less to be read**, and at most one line given back. -/
theorem Takes.isSettled_and_isProperEnd (h : r.Takes r') (hr : r.IsSettled) :
    r'.IsSettled ∧ IsProperEnd r'.toRead r.toRead := by
  rcases r.finds_or_findsNone with ⟨g, line, start, hfinds⟩ | hnone
  · have hstart := hfinds.pushedBack_start hr
    have hwhole : r.readGame.reader.IsSettled ∧ IsProperEnd r.readGame.reader.toRead r.toRead :=
      ⟨hfinds.hasGivenBack.isSettled hstart, isProperEnd_of_readGame hfinds.readGame_upcoming⟩
    cases h with
    | whole h => exact hwhole
    | @brokenOff g' m h hm =>
      obtain rfl : g = g' := Option.some.inj (hfinds.game.symm.trans h)
      rcases hfinds.moments m hm with hprecedes | hend
      · refine ⟨(HasGivenBack.nothing hprecedes).isSettled hstart, ?_⟩
        have hline := ne_nil_of_isBetweenGames hfinds.isBetweenGames_line
        exact (isProperEnd_append hline (hprecedes.toRead_suffix hstart)).trans_suffix
          hfinds.suffix.flatten
      · rw [hend]
        exact hwhole
  · have hgame := hnone.game
    cases h with
    | whole h => cases hgame.symm.trans h
    | brokenOff h hm => cases hgame.symm.trans h

/-- The readers that calls lead to from the start of a text, with the number of calls that found a
game. -/
inductive IsReached (t : Text) : Nat → LineReader → Prop
  | start : IsReached t 0 (ofText t)
  | noGame {n : Nat} {r : LineReader} (h : IsReached t n r) (hr : r.readGame.game = none) :
    IsReached t n r.readGame.reader
  | game {n : Nat} {r r' : LineReader} (h : IsReached t n r) (hr : r.Takes r') :
    IsReached t (n + 1) r'

/-- **Whatever calls are made**, at most one line is given back, and each call that found a game has
taken at least one character. -/
theorem IsReached.isSettled_and_length_le {t : Text} {n : Nat} (h : IsReached t n r) :
    r.IsSettled ∧ n + r.toRead.length ≤ t.length := by
  induction h with
  | start => exact ⟨isSettled_of_pushedBack_eq_nil rfl, by simp [toRead]⟩
  | @noGame n r h hr ih =>
    rcases r.finds_or_findsNone with ⟨g, line, start, hfinds⟩ | hnone
    · cases hr.symm.trans hfinds.game
    · have hupcoming := hnone.upcoming
      refine ⟨isSettled_of_pushedBack_eq_nil (List.append_eq_nil_iff.1 hupcoming).1, ?_⟩
      have hle := ih.2
      rw [toRead, hupcoming, List.flatten_nil, List.length_nil]
      omega
  | @game n r r' h hr ih =>
    obtain ⟨hsettled, hend⟩ := hr.isSettled_and_isProperEnd ih.1
    have hlt := hend.length_lt
    have hle := ih.2
    exact ⟨hsettled, by omega⟩

end LineReader

end Pgn

/-! ## Reading a source -/

namespace SourceReading

variable {path : Text} {fault : Option SourceError}

theorem ofLines_of_none {gameIndex : Nat} {lines : List Line} (h : readGame lines = none) :
    ofLines path fault gameIndex lines = ended (endOf fault) := by
  rw [ofLines]
  split
  · rfl
  · rename_i hsome
    cases h.symm.trans hsome

/-- The games of a source that a reader finds, if no more than `calls` calls are needed for them.
The text breaks off in `fault` at its end. -/
def ofReader (path : Text) (fault : Option SourceError) :
    Nat → Nat → LineReader → Option SourceReading
  | 0, _, _ => none
  | calls + 1, gameIndex, r =>
    match r.readGame.game with
    | none => some (ended (endOf fault))
    | some g =>
      if r.readGame.reader.upcoming.isEmpty && fault.isSome && !g.transcript.isOversized then
        some (ended (endOf fault))
      else match Record.ofTranscript path gameIndex g.transcript with
        | .error numeral => some (ended (.oversized numeral))
        | .ok record =>
          (ofReader path fault calls (gameIndex + 1) r.readGame.reader).map
            (·.precededBy ⟨record, diagnostic? g.transcript path gameIndex⟩)

/-- **The loop over the games of a source ends**: it makes no more calls than characters are to be
read, and one more. -/
theorem ofReader_eq {calls : Nat} : ∀ {gameIndex : Nat} {r : LineReader}, r.toRead.length < calls →
    ofReader path fault calls gameIndex r = some (ofLines path fault gameIndex r.upcoming) := by
  induction calls with
  | zero => exact fun h => absurd h (Nat.not_lt_zero _)
  | succ calls ih =>
    intro gameIndex r h
    rcases r.finds_or_findsNone with ⟨g, line, start, hfinds⟩ | hnone
    · have hlt := (isProperEnd_of_readGame hfinds.readGame_upcoming).length_lt
      have hcalls : r.readGame.reader.toRead.length < calls :=
        Nat.lt_of_lt_of_le hlt (Nat.le_of_lt_succ h)
      rw [ofReader, hfinds.game, ofLines_of_some hfinds.readGame_upcoming]
      simp only
      split
      · rfl
      · cases Record.ofTranscript path gameIndex g.transcript with
        | error numeral => rfl
        | ok record => simp only [ih hcalls, Option.map_some]
    · rw [ofReader, hnone.game, ofLines_of_none hnone.readGame_upcoming]

/-- A source has no more games than characters. -/
theorem length_games_ofLines_le (path : Text) (fault : Option SourceError) (gameIndex : Nat)
    (lines : List Line) :
    (ofLines path fault gameIndex lines).games.length ≤ lines.flatten.length := by
  fun_induction ofLines path fault gameIndex lines with
  | case1 => exact Nat.zero_le _
  | case2 => exact Nat.zero_le _
  | case3 => exact Nat.zero_le _
  | case4 gameIndex lines t rest h hlost record hrecord ih =>
    have hlt := (isProperEnd_of_readGame h).length_lt
    rw [precededBy, List.length_cons]
    omega

end SourceReading

/-- **Reading always makes progress.** Whatever calls have been made of a reader of a text, at most
one line is given back, the end of the line that was read last, from a bracket on. A call finds the
game that is read from the list of all lines, and however it ends it takes at least one character
off what is to be read. So no more calls find a game than the text has characters, and the loop over
the games of a source ends after that many games. -/
theorem reading_progresses (path : Text) (fault : Option SourceError) {t : Text} {n : Nat}
    {r : LineReader} (h : r.IsReached t n) :
    r.IsSettled ∧
    r.readGame.game.map (fun g => (g.transcript, r.readGame.reader.upcoming))
      = readGame r.upcoming ∧
    (∀ r', r.Takes r' → r'.toRead <:+ r.toRead ∧ r'.toRead.length < r.toRead.length) ∧
    n + r.toRead.length ≤ t.length ∧
    SourceReading.ofReader path fault (t.length + 1) 1 (.ofText t)
      = some (SourceReading.ofLines path fault 1 (lines t)) ∧
    (SourceReading.ofLines path fault 1 (lines t)).games.length ≤ t.length := by
  obtain ⟨hsettled, hlength⟩ := h.isSettled_and_length_le
  refine ⟨hsettled, r.readGame_eq, fun r' hr' => ?_, hlength, ?_, ?_⟩
  · obtain ⟨_, hend⟩ := hr'.isSettled_and_isProperEnd hsettled
    exact ⟨hend.suffix, hend.length_lt⟩
  · refine SourceReading.ofReader_eq ?_
    simp [LineReader.toRead]
  · have hle := SourceReading.length_games_ofLines_le path fault 1 (lines t)
    rwa [flatten_lines] at hle

/-- A tag pair follows the result of a game in the same line. -/
def crowded : Text := "[White \"A\"]\n\n1. e4 * [White \"B\"]\n1. d4 *\n".toList

/-- The reader behind the first game. -/
def behindFirst : LineReader where
  pushedBack := ["[White \"B\"]\n".toList]
  unread := ["1. d4 *\n".toList]
  lastRead := some "1. e4 * [White \"B\"]\n".toList

theorem reading_progresses_crowded :
    behindFirst.IsReached crowded 1 ∧ behindFirst.IsSettled ∧
    (∀ r', behindFirst.Takes r' → r'.toRead.length < behindFirst.toRead.length) ∧
    1 + behindFirst.toRead.length ≤ crowded.length := by
  have hreader : (LineReader.ofText crowded).readGame.reader = behindFirst := by decide +kernel
  have hgame : (LineReader.ofText crowded).readGame.game.isSome = true := by decide +kernel
  obtain ⟨g, hg⟩ := Option.isSome_iff_exists.1 hgame
  have hreached : behindFirst.IsReached crowded 1 := hreader ▸ .game .start (.whole hg)
  obtain ⟨hsettled, _, hless, hlength, _⟩ := reading_progresses "a.pgn".toList none hreached
  exact ⟨hreached, hsettled, fun r' hr' => (hless r' hr').2, hlength⟩

end Scoresheet
