import Scoresheet.Proofs.Pgn.PrintedGame
import Scoresheet.Proofs.Record.Existence

/-!
# Files of many games

A text that leaves nothing open may be put in front of a text that starts with tags: the games and
the records of the two are those of the first and then those of the second, the numbers of the
second shifted. A file of game texts thus gives the record of each game, as if that game had been
read alone with its number (`records_of_games`).

A game whose rating or date has a numeral of too many digits has no record, and neither has the
file it stands in (`no_records_of_long_rating`).
-/

namespace Scoresheet

open Text Pgn

/-! ## Texts with boundaries -/

/-- A text of whole lines that leaves nothing open behind it. -/
structure Detachable (t : Text) : Prop where
  endsLine : t = [] ∨ t.getLast? = some '\n'
  severable : Severable (lines t)

/-- The text of one game that may stand anywhere among others. -/
structure IsGameText (t : Text) : Prop extends Detachable t where
  startsAfresh : StartsAfresh (lines t)
  exists_game : ∃ game, readGames (lines t) = [game]

/-- **Games do not interfere across a boundary.** -/
theorem readGames_lines_append {front back : Text} (hfront : Detachable front)
    (hback : StartsAfresh (lines back)) :
    readGames (lines (front ++ back)) = readGames (lines front) ++ readGames (lines back) := by
  rw [lines_append hfront.endsLine, readGames_append hback hfront.severable]

namespace IsGameText

variable {t : Text}

theorem readGames_eq (h : IsGameText t) : readGames (lines t) = [Transcript.first t] := by
  obtain ⟨game, hgame⟩ := h.exists_game
  cases hr : readGame (lines t) with
  | none =>
    rw [readGames_of_none hr] at hgame
    simp at hgame
  | some r =>
    obtain ⟨u, rest⟩ := r
    have hfirst : Transcript.first t = u := by rw [Transcript.first, hr]; rfl
    rw [readGames_of_some hr, List.cons.injEq] at hgame
    rw [readGames_of_some hr, hfirst, hgame.2]

theorem not_isOversized_first (h : IsGameText t) : (Transcript.first t).isOversized = false := by
  refine h.severable.readable _ ?_
  rw [h.readGames_eq]
  exact List.mem_singleton_self _

/-- A game text starts afresh whatever stands behind it. -/
theorem startsAfresh_append (h : IsGameText t) (more : Text) :
    StartsAfresh (lines (t ++ more)) := by
  have hne : (lines t).dropWhile isBetweenGames ≠ [] := by
    intro hd
    have hgame := h.readGames_eq
    rw [readGames_of_none (by rw [readGame, hd])] at hgame
    simp at hgame
  intro line hline
  refine h.startsAfresh line ?_
  rw [lines_append h.endsLine, List.dropWhile_append, if_neg (by simpa using hne)] at hline
  rwa [List.head?_append_of_ne_nil _ hne] at hline

end IsGameText

theorem startsAfresh_nil : StartsAfresh [] := by
  intro line h
  simp at h

theorem startsAfresh_flatten {games : List Text} (h : ∀ g ∈ games, IsGameText g) :
    StartsAfresh (lines games.flatten) := by
  cases games with
  | nil => exact startsAfresh_nil
  | cons g games =>
    rw [List.flatten_cons]
    exact (h g List.mem_cons_self).startsAfresh_append _

/-- The games of a file are those of its game texts. -/
theorem readGames_flatten {games : List Text} (h : ∀ g ∈ games, IsGameText g) :
    readGames (lines games.flatten) = games.map Transcript.first := by
  induction games with
  | nil => exact readGames_of_none rfl
  | cons g games ih =>
    have hg := h g List.mem_cons_self
    have hrest : ∀ g ∈ games, IsGameText g := fun g hg => h g (List.mem_cons_of_mem _ hg)
    rw [List.flatten_cons, readGames_lines_append hg.toDetachable (startsAfresh_flatten hrest),
      ih hrest, hg.readGames_eq, List.singleton_append, List.map_cons]

/-! ## Printed games -/

namespace Pgn.PrintedGame

variable (g : PrintedGame)

theorem readGames_toText : readGames (lines g.toText) = [⟨g.events, none⟩] := by
  rw [readGames_of_some g.readGame_eq, readGames_of_none rfl, ite_self]

theorem severable : Severable (lines g.toText) := by
  obtain ⟨body, htags, hscan⟩ := g.readTags_toText
  refine ⟨fun t ht => ?_, fun t ht => ?_, fun s hs => ?_⟩
  · rw [g.readGames_toText, List.mem_singleton] at ht
    rw [ht]
    rfl
  · rw [g.readGames_toText, List.mem_singleton] at ht
    rw [ht]
    simp
  · rw [tagSections_of_some g.readGame_eq, tagSections_nil, ite_self, htags,
      List.getLast?_singleton, Option.some.injEq] at hs
    rw [← hs]
    rintro rfl
    -- without a line there would be no result
    simp [scanLines, Cursor.start] at hscan

theorem endsLine : g.toText.getLast? = some '\n' := by
  have htext : g.toText = tagText g.tagLines
      ++ ('\n' :: g.lead.text ++ (g.items.toText ++ g.result.toText)) ++ ['\n'] := by
    simp [toText, movetext]
  rw [htext, List.getLast?_concat]

/-- **A printed game with tags is a game text.** -/
theorem isGameText {l : TagLine} {ls : List TagLine} (h : g.tagLines = l :: ls) :
    IsGameText g.toText := by
  refine ⟨⟨Or.inr g.endsLine, g.severable⟩, ?_, ⟨_, g.readGames_toText⟩⟩
  have hopen : opensTag (l.toText ++ ['\n']) = true := l.opensTag_toText _
  intro line hline
  rw [g.lines_toText, h, List.map_cons, List.cons_append, List.dropWhile_cons_of_neg] at hline
  · obtain rfl : l.toText ++ ['\n'] = line := by simpa using hline
    exact hopen
  · intro hbetween
    rw [opensTag_of_isBetweenGames hbetween] at hopen
    simp at hopen

end Pgn.PrintedGame

/-! ## Records -/

/-- The records of a text that is read alone with an assembly of its own, the first of its games
numbered `gameIndex`. -/
def recordsAlone (path : Text) (gameIndex : Nat) (t : Text) :
    Except OversizedNumeral (List Record) :=
  Assembly.start.records path gameIndex (readGames (lines t))

/-- One assembly makes of a text what a new one does. -/
theorem records_lines (a : Assembly) (path : Text) (gameIndex : Nat) (t : Text) :
    a.records path gameIndex (readGames (lines t))
      = Record.ofTranscripts path gameIndex (readGames (lines t)) :=
  Assembly.records_eq path (fun _ hu => isFramed_of_mem_readGames hu) a gameIndex

/-- **The records across a boundary** are those of either text, the second with its numbers
shifted. -/
theorem records_lines_append {front back : Text} (hfront : Detachable front)
    (hback : StartsAfresh (lines back)) (a : Assembly) (path : Text) (gameIndex : Nat) :
    a.records path gameIndex (readGames (lines (front ++ back))) = (do
      let records ← recordsAlone path gameIndex front
      let more ← recordsAlone path (gameIndex + (readGames (lines front)).length) back
      return records ++ more) := by
  unfold recordsAlone
  rw [records_lines, records_lines, records_lines, readGames_lines_append hfront hback,
    Record.ofTranscripts_append]

theorem IsGameText.recordsAlone_eq {t : Text} (h : IsGameText t) (path : Text) (gameIndex : Nat)
    (r : Record) :
    recordsAlone path gameIndex t = .ok [r] ↔
      Record.ofTranscript path gameIndex (Transcript.first t) = .ok r := by
  unfold recordsAlone
  rw [records_lines, h.readGames_eq, Record.ofTranscripts_cons_eq_ok]
  constructor
  · rintro ⟨q, rs, hq, _, heq⟩
    obtain ⟨rfl, _⟩ : r = q ∧ rs = [] := by simpa using heq
    exact hq
  · exact fun hr => ⟨r, [], hr, rfl, rfl⟩

/-- **A file of game texts gives the record of each of them.** -/
theorem records_flatten {games : List Text} (h : ∀ g ∈ games, IsGameText g) (a : Assembly)
    (path : Text) (gameIndex : Nat) (records : List Record) :
    a.records path gameIndex (readGames (lines games.flatten)) = .ok records ↔
      records.length = games.length ∧ ∀ k g r, games[k]? = some g → records[k]? = some r →
        recordsAlone path (gameIndex + k) g = .ok [r] := by
  rw [records_lines, readGames_flatten h, Record.ofTranscripts_eq_ok, List.length_map]
  refine and_congr_right fun _ => ⟨fun hall k g r hg hr => ?_, fun hall k t r ht hr => ?_⟩
  · rw [(h g (List.mem_of_getElem? hg)).recordsAlone_eq]
    exact hall k _ r (by rw [List.getElem?_map, hg]; rfl) hr
  · rw [List.getElem?_map, Option.map_eq_some_iff] at ht
    obtain ⟨g, hg, rfl⟩ := ht
    rw [← (h g (List.mem_of_getElem? hg)).recordsAlone_eq]
    exact hall k g r hg hr

/-- A file of game texts has records exactly if no header of a game is oversized. -/
theorem exists_records_flatten_iff {games : List Text} (h : ∀ g ∈ games, IsGameText g)
    (a : Assembly) (path : Text) (gameIndex : Nat) :
    (∃ records, a.records path gameIndex (readGames (lines games.flatten)) = .ok records) ↔
      ∀ g ∈ games, ¬(Transcript.first g).headers.IsOversized := by
  simp only [records_lines]
  rw [Record.exists_ofTranscripts_iff path fun _ ht => isFramed_of_mem_readGames ht,
    readGames_flatten h, List.forall_mem_map]
  exact forall₂_congr fun g hg => and_iff_right (h g hg).not_isOversized_first

/-! ## A rating of too many digits -/

/-- A tag line that gives White's rating as a number of `n` ones. -/
def ratingLine (n : Nat) : TagLine where
  first :=
    { gap := []
      tag := ⟨"WhiteElo".toList, List.replicate n '1'⟩
      isBlankText_gap := rfl
      gap_line := by simp
      isPrintable :=
        ⟨⟨'W', "hiteElo".toList, rfl, by decide⟩,
          fun c hc => List.all_eq_true.1 (show "WhiteElo".toList.all Tag.isKeyChar = true by decide)
            c hc,
          fun h => absurd (List.eq_of_mem_replicate h) (by decide)⟩ }
  more := []

/-- A game that says no more than White's rating. -/
def ratedGame (n : Nat) : PrintedGame := ⟨[ratingLine n], ⟨[], rfl⟩, .nil, .unknown⟩

theorem isGameText_ratedGame (n : Nat) : IsGameText (ratedGame n).toText :=
  (ratedGame n).isGameText rfl

theorem headers_ratedGame (n : Nat) :
    (Transcript.first (ratedGame n).toText).headers
      = [⟨"WhiteElo".toList, List.replicate n '1'⟩] := by
  have hfirst : Transcript.first (ratedGame n).toText = ⟨(ratedGame n).events, none⟩ := by
    have h := (isGameText_ratedGame n).readGames_eq
    rw [(ratedGame n).readGames_toText, List.singleton_inj] at h
    exact h.symm
  rw [hfirst]
  rfl

theorem trim_replicate (n : Nat) : trim (List.replicate n '1') = List.replicate n '1' := by
  cases n with
  | zero => rfl
  | succ n =>
    rw [trim, List.replicate_succ, trimLeft_cons_of_not_isBlank (by decide), ← List.replicate_succ,
      List.replicate_succ']
    have h := trimRight_append (g := []) rfl (List.replicate n '1') (c := '1') (by decide)
    rwa [List.append_nil] at h

theorem isOversized_ratedGame (n : Nat) :
    (Transcript.first (ratedGame n).toText).headers.IsOversized ↔ maxDigits < n := by
  rw [headers_ratedGame]
  constructor
  · rintro (⟨key, hkey, raw, hraw, _, hlength⟩ | ⟨before, c, after, hdates, _⟩)
    · rcases List.mem_cons.1 hkey with rfl | hkey
      · obtain rfl : List.replicate n '1' = raw := Option.some.inj hraw
        rwa [trim_replicate, List.length_replicate] at hlength
      · obtain rfl := List.mem_singleton.1 hkey
        have hnone : Headers.get? [⟨"WhiteElo".toList, List.replicate n '1'⟩] "BlackElo" = none :=
          rfl
        rw [hnone] at hraw
        cases hraw
    · have hnone : Headers.dateCandidates [⟨"WhiteElo".toList, List.replicate n '1'⟩] = [] :=
        List.mergeSort_nil
      rw [hnone] at hdates
      simp at hdates
  · intro hn
    refine Or.inl ⟨"WhiteElo", List.mem_cons_self, List.replicate n '1', rfl, ?_⟩
    rw [trim_replicate, Text.IsOversized, List.length_replicate, isNumeral]
    refine ⟨?_, hn⟩
    have hne : n ≠ 0 := by
      rintro rfl
      simp at hn
    simp [hne, isAsciiDigit]

/-! ## Files -/

/-- **Games do not interfere across boundaries.** The games of two texts that meet at a boundary are
the games of either, and so are the records that one assembly makes of them. A file of game texts
gives one record for each, the record of the game read alone with its number, unless a header of a
game is oversized. -/
theorem records_of_games {front back : Text} (hfront : Detachable front)
    (hback : StartsAfresh (lines back)) {games : List Text} (hgames : ∀ g ∈ games, IsGameText g)
    (a : Assembly) (path : Text) (gameIndex : Nat) :
    readGames (lines (front ++ back)) = readGames (lines front) ++ readGames (lines back) ∧
    a.records path gameIndex (readGames (lines (front ++ back))) = (do
      let records ← recordsAlone path gameIndex front
      let more ← recordsAlone path (gameIndex + (readGames (lines front)).length) back
      return records ++ more) ∧
    (∀ records, a.records path gameIndex (readGames (lines games.flatten)) = .ok records ↔
      records.length = games.length ∧ ∀ k g r, games[k]? = some g → records[k]? = some r →
        recordsAlone path (gameIndex + k) g = .ok [r]) ∧
    ((∃ records, a.records path gameIndex (readGames (lines games.flatten)) = .ok records) ↔
      ∀ g ∈ games, ¬(Transcript.first g).headers.IsOversized) :=
  ⟨readGames_lines_append hfront hback, records_lines_append hfront hback a path gameIndex,
    records_flatten hgames a path gameIndex, exists_records_flatten_iff hgames a path gameIndex⟩

theorem records_of_games_rated :
    Detachable (ratedGame 4).toText ∧ StartsAfresh (lines (ratedGame 4).toText) ∧
    (∀ g ∈ [(ratedGame 4).toText, (ratedGame 4).toText], IsGameText g) ∧
    ∃ records, Assembly.start.records ['f'] 1
        (readGames (lines [(ratedGame 4).toText, (ratedGame 4).toText].flatten)) = .ok records ∧
      records.length = 2 := by
  have h := isGameText_ratedGame 4
  have hgames : ∀ g ∈ [(ratedGame 4).toText, (ratedGame 4).toText], IsGameText g := by
    simp [h]
  obtain ⟨_, _, hrecords, hexists⟩ :=
    records_of_games h.toDetachable h.startsAfresh hgames .start ['f'] 1
  have hshort : ¬(Transcript.first (ratedGame 4).toText).headers.IsOversized := by
    rw [isOversized_ratedGame]
    decide
  obtain ⟨records, hr⟩ := hexists.2 (by simp [hshort])
  exact ⟨h.toDetachable, h.startsAfresh, hgames, records, hr, ((hrecords records).1 hr).1⟩

/-- A game text whose rating has one digit too many gives no record. -/
theorem no_records_of_long_rating :
    IsGameText (ratedGame 4301).toText ∧
    ¬∃ records, Assembly.start.records ['f'] 1 (readGames (lines (ratedGame 4301).toText))
      = .ok records := by
  have h := isGameText_ratedGame 4301
  refine ⟨h, fun hexists => ?_⟩
  have hgames : ∀ g ∈ [(ratedGame 4301).toText], IsGameText g := by simp [h]
  have hall := (exists_records_flatten_iff hgames .start ['f'] 1).1 (by simpa using hexists)
  refine hall _ (List.mem_singleton_self _) ?_
  rw [isOversized_ratedGame]
  decide

end Scoresheet
