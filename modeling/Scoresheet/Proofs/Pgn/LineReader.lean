import Scoresheet.Proofs.Pgn.Boundary

/-!
# Reading line by line

`readGame` is given all lines at once. Here a reader takes one line after another, and gives a line
back that it finds to belong to the next game (`LineReader`). Each event of a game is noted with the
reader as it is when the event is told (`Moment`), because whoever is told of it may break the
reading off.

Reading line by line comes to the same as `readGame` (`LineReader.readGame_eq`). The reader only
moves on (`LineReader.Precedes`), and what it gives back in the end is one line, the end of the line
that it has read last (`LineReader.HasGivenBack`).
-/

namespace Scoresheet.Pgn

open Text

/-! ## Readers -/

/-- A reader of a text. -/
structure LineReader where
  /-- The lines that were given back, the last of them first. -/
  pushedBack : List Line
  /-- The lines that have not been taken from the text. -/
  unread : List Line
  /-- The line that was read last. -/
  lastRead : Option Line
  deriving DecidableEq, Repr

namespace LineReader

/-- A reader at the start of a text. -/
def ofText (t : Text) : LineReader := ⟨[], lines t, none⟩

/-- The lines that are to be read. -/
def upcoming (r : LineReader) : List Line := r.pushedBack ++ r.unread

/-- The characters that are to be read. -/
def toRead (r : LineReader) : Text := r.upcoming.flatten

/-- Reads a line, if there is one: the line given back last, or else one of the text. -/
def nextLine (r : LineReader) : Option Line × LineReader :=
  match r.pushedBack, r.unread with
  | line :: pushedBack, unread => (some line, ⟨pushedBack, unread, some line⟩)
  | [], line :: unread => (some line, ⟨[], unread, some line⟩)
  | [], [] => (none, r)

/-- Gives a line back. -/
def pushBack (r : LineReader) (line : Line) : LineReader :=
  { r with pushedBack := line :: r.pushedBack }

/-- The line at hand, if there is one, and the lines after it. -/
def ahead (r : LineReader) (line : Option Line) : List Line := line.toList ++ r.upcoming

@[simp]
theorem upcoming_ofText (t : Text) : (ofText t).upcoming = lines t := rfl

@[simp]
theorem upcoming_pushBack (r : LineReader) (line : Line) :
    (r.pushBack line).upcoming = line :: r.upcoming := rfl

@[simp]
theorem ahead_none (r : LineReader) : r.ahead none = r.upcoming := rfl

@[simp]
theorem ahead_some (r : LineReader) (line : Line) : r.ahead (some line) = line :: r.upcoming := rfl

@[simp]
theorem ahead_nextLine (r : LineReader) : r.nextLine.2.ahead r.nextLine.1 = r.upcoming := by
  obtain ⟨_ | ⟨line, pushedBack⟩, _ | ⟨first, unread⟩, last⟩ := r <;> rfl

/-! ## Reading a game -/

/-- An event with the reader as it is when the event is told. -/
structure Moment where
  event : Event
  reader : LineReader
  deriving DecidableEq, Repr

/-- Events that are told while the reader stands still. -/
def telling (r : LineReader) (events : List Event) : List Moment := events.map (⟨·, r⟩)

/-- Passes over lines that belong to no game, from the line at hand on. -/
def skip : Option Line → LineReader → Option Line × LineReader
  | none, r => (none, r)
  | some line, r =>
    if isBetweenGames line then skip r.nextLine.1 r.nextLine.2 else (some line, r)
termination_by line r => (r.ahead line).length
decreasing_by simp

/-- What was told of a tag section, its first malformed line, and the line and the reader that it
leaves. -/
structure TagPassage where
  moments : List Moment
  fault : Option Text
  line : Option Line
  reader : LineReader

/-- The passage with moments put in front. -/
def TagPassage.after (moments : List Moment) (p : TagPassage) : TagPassage :=
  { p with moments := moments ++ p.moments }

/-- Reads tag lines from the line at hand on, given the first malformed tag line so far. -/
def passTags (fault : Option Text) : Option Line → LineReader → TagPassage
  | none, r => ⟨[], fault, none, r⟩
  | some line, r =>
    if opensTag line then
      match Tag.readLine? (trim line) with
      | some tags => (passTags fault r.nextLine.1 r.nextLine.2).after
          (r.telling (tags.map fun tag => .tag tag.key tag.value))
      | none => passTags (fault.or (some (trim line))) r.nextLine.1 r.nextLine.2
    else if isBetweenGames line then passTags fault r.nextLine.1 r.nextLine.2
    else ⟨[], fault, some line, r⟩
termination_by line r => (r.ahead line).length
decreasing_by all_goals simp

/-- What was told of a movetext, how it ended, and the reader after it. -/
structure MovetextPassage where
  moments : List Moment
  ending : MovetextEnd
  reader : LineReader

/-- The passage with moments put in front. -/
def MovetextPassage.after (moments : List Moment) (p : MovetextPassage) : MovetextPassage :=
  { p with moments := moments ++ p.moments }

/-- The movetext without the places of its events. -/
def MovetextPassage.movetext (p : MovetextPassage) : Movetext :=
  ⟨p.moments.map Moment.event, p.ending, p.reader.upcoming⟩

/-- Scans the lines of a movetext from the line at hand on. Only a line after the first is looked at
for a tag pair or a percent sign. -/
def passMovetext (s : Cursor) (isFirst : Bool) : Option Line → LineReader → MovetextPassage
  | none, r => match s.comment with
    | none => ⟨[], .complete, r⟩
    | some body =>
      ⟨if s.depth = 0 then r.telling [.partialComment body.reverse] else [],
        .unterminatedComment, r⟩
  | some line, r =>
    if !isFirst && s.comment.isNone && opensTag line then ⟨[], .complete, r.pushBack line⟩
    else if !isFirst && s.comment.isNone && isEscapeLine line then
      passMovetext s false r.nextLine.1 r.nextLine.2
    else match scanLine s [] line with
      | ⟨events, .endOfLine s⟩ =>
        (passMovetext s false r.nextLine.1 r.nextLine.2).after (r.telling events)
      | ⟨events, .nextGame rest⟩ => ⟨r.telling events, .complete, r.pushBack rest⟩
      | ⟨events, .oversizedNag e⟩ => ⟨r.telling events, .oversizedNag e, r⟩
termination_by line r => (r.ahead line).length
decreasing_by all_goals simp

/-- A game as it was told. -/
structure ToldGame where
  moments : List Moment
  error : Option ReadError

/-- The game without the places of its events. -/
def ToldGame.transcript (g : ToldGame) : Transcript := ⟨g.moments.map Moment.event, g.error⟩

/-- Reads the game that starts with the line at hand; the second component is the reader after
it. -/
def tellGame (line : Line) (r : LineReader) : ToldGame × LineReader :=
  let head := passTags none (some line) r
  let body := passMovetext .start true head.line head.reader
  let error := gameError head.fault body.ending
  (⟨r.telling [.beginTags] ++ head.moments ++ head.reader.telling [.beginMovetext] ++ body.moments
      ++ (if error.isNone then body.reader.telling [.endGame] else []), error⟩, body.reader)

/-- What a call of the reader gives: a game, if there is one left, and the reader afterwards. -/
structure Call where
  game : Option ToldGame
  reader : LineReader

/-- Reads the next game. -/
def readGame (r : LineReader) : Call :=
  match skip r.nextLine.1 r.nextLine.2 with
  | (none, r) => ⟨none, r⟩
  | (some line, r) => ⟨some (tellGame line r).1, (tellGame line r).2⟩

/-! ## What comes at hand -/

/-- The line at hand was read last, and there is none only at the end of the text. -/
structure HasAtHand (r : LineReader) (line : Option Line) : Prop where
  upcoming : line = none → r.upcoming = []
  lastRead : ∀ l, line = some l → r.lastRead = some l

theorem hasAtHand_nextLine (r : LineReader) : r.nextLine.2.HasAtHand r.nextLine.1 := by
  obtain ⟨_ | ⟨line, pushedBack⟩, _ | ⟨first, unread⟩, last⟩ := r
  · exact ⟨fun _ => rfl, nofun⟩
  · exact ⟨nofun, fun l hl => hl⟩
  · exact ⟨nofun, fun l hl => hl⟩
  · exact ⟨nofun, fun l hl => hl⟩

/-- The second reader stands where the first does or further on, and nothing was given back in
between. -/
structure Precedes (r r' : LineReader) : Prop where
  pushedBack : r'.pushedBack <:+ r.pushedBack
  unread : r'.unread <:+ r.unread

namespace Precedes

variable {r r' r'' : LineReader}

theorem refl (r : LineReader) : r.Precedes r := ⟨List.suffix_rfl, List.suffix_rfl⟩

theorem trans (h : r.Precedes r') (h' : r'.Precedes r'') : r.Precedes r'' :=
  ⟨h'.pushedBack.trans h.pushedBack, h'.unread.trans h.unread⟩

theorem nextLine (r : LineReader) : r.Precedes r.nextLine.2 := by
  obtain ⟨_ | ⟨line, pushedBack⟩, _ | ⟨first, unread⟩, last⟩ := r
  · exact .refl _
  · exact ⟨List.suffix_rfl, List.suffix_cons _ _⟩
  · exact ⟨List.suffix_cons _ _, List.suffix_rfl⟩
  · exact ⟨List.suffix_cons _ _, List.suffix_rfl⟩

/-- Where nothing has been given back, what is still to be read is an end of what was to be read. -/
theorem toRead_suffix (h : r.Precedes r') (hr : r.pushedBack = []) : r'.toRead <:+ r.toRead := by
  have hr' : r'.pushedBack = [] := List.suffix_nil.1 (hr ▸ h.pushedBack)
  obtain ⟨before, hbefore⟩ := h.unread
  refine ⟨before.flatten, ?_⟩
  rw [toRead, toRead, upcoming, upcoming, hr, hr', ← hbefore, List.nil_append, List.nil_append,
    List.flatten_append]

end Precedes

theorem precedes_of_mem_telling {r : LineReader} {events : List Event} {m : Moment}
    (h : m ∈ r.telling events) : r.Precedes m.reader := by
  obtain ⟨e, _, rfl⟩ := List.mem_map.1 h
  exact .refl r

@[simp]
theorem map_event_telling (r : LineReader) (events : List Event) :
    (r.telling events).map Moment.event = events := by
  rw [telling, List.map_map]
  exact List.map_id _

/-! ## Before a game -/

theorem ahead_skip {line : Option Line} {r : LineReader} (h : r.HasAtHand line) :
    (skip line r).2.ahead (skip line r).1 = (r.ahead line).dropWhile isBetweenGames := by
  fun_induction skip line r with
  | case1 r => rw [ahead_none, h.upcoming rfl, List.dropWhile_nil]
  | case2 line r hline ih =>
    rw [ih (hasAtHand_nextLine r), ahead_nextLine, ahead_some, List.dropWhile_cons_of_pos hline]
  | case3 line r hline => rw [ahead_some, List.dropWhile_cons_of_neg hline]

theorem hasAtHand_skip {line : Option Line} {r : LineReader} (h : r.HasAtHand line) :
    (skip line r).2.HasAtHand (skip line r).1 := by
  fun_induction skip line r with
  | case1 r => exact h
  | case2 line r hline ih => exact ih (hasAtHand_nextLine r)
  | case3 line r hline => exact h

theorem precedes_skip (line : Option Line) (r : LineReader) : r.Precedes (skip line r).2 := by
  fun_induction skip line r with
  | case1 r => exact .refl r
  | case2 line r hline ih => exact (Precedes.nextLine r).trans ih
  | case3 line r hline => exact .refl r

/-! ## Tag sections -/

/-- **The tags are read** as they are from the list of all lines. -/
theorem passTags_eq (fault : Option Text) {line : Option Line} {r : LineReader}
    (h : r.HasAtHand line) :
    (passTags fault line r).moments.map Moment.event
        = (readTags (r.ahead line)).tags.map (fun tag => .tag tag.key tag.value) ∧
      (passTags fault line r).fault = fault.or (readTags (r.ahead line)).fault ∧
      (passTags fault line r).reader.ahead (passTags fault line r).line
        = (readTags (r.ahead line)).body := by
  fun_induction passTags fault line r with
  | case1 fault r =>
    rw [ahead_none, h.upcoming rfl, readTags]
    simp
  | case2 fault line r hopen tags hread ih =>
    obtain ⟨hmoments, hfault, hbody⟩ := ih (hasAtHand_nextLine r)
    rw [ahead_nextLine] at hmoments hfault hbody
    rw [ahead_some, readTags, if_pos hopen, hread]
    refine ⟨?_, hfault, hbody⟩
    rw [TagPassage.after, List.map_append, map_event_telling, hmoments, List.map_append]
  | case3 fault line r hopen hread ih =>
    obtain ⟨hmoments, hfault, hbody⟩ := ih (hasAtHand_nextLine r)
    rw [ahead_nextLine] at hmoments hfault hbody
    rw [ahead_some, readTags, if_pos hopen, hread]
    refine ⟨hmoments, ?_, hbody⟩
    rw [hfault]
    cases fault <;> rfl
  | case4 fault line r hopen hbetween ih =>
    rw [isBetweenGames] at hbetween
    rw [ahead_some, readTags, if_neg hopen, if_pos hbetween]
    simpa only [ahead_nextLine] using ih (hasAtHand_nextLine r)
  | case5 fault line r hopen hbetween =>
    rw [isBetweenGames] at hbetween
    rw [ahead_some, readTags, if_neg hopen, if_neg hbetween]
    simp

/-- Among tags the reader moves on. -/
theorem precedes_passTags (fault : Option Text) (line : Option Line) (r : LineReader) :
    (∀ m ∈ (passTags fault line r).moments, r.Precedes m.reader) ∧
      r.Precedes (passTags fault line r).reader := by
  fun_induction passTags fault line r with
  | case1 fault r => exact ⟨by simp, .refl r⟩
  | case2 fault line r hopen tags hread ih =>
    refine ⟨fun m hm => ?_, (Precedes.nextLine r).trans ih.2⟩
    rcases List.mem_append.1 hm with hm | hm
    · exact precedes_of_mem_telling hm
    · exact (Precedes.nextLine r).trans (ih.1 m hm)
  | case3 fault line r hopen hread ih =>
    exact ⟨fun m hm => (Precedes.nextLine r).trans (ih.1 m hm), (Precedes.nextLine r).trans ih.2⟩
  | case4 fault line r hopen hbetween ih =>
    exact ⟨fun m hm => (Precedes.nextLine r).trans (ih.1 m hm), (Precedes.nextLine r).trans ih.2⟩
  | case5 fault line r hopen hbetween => exact ⟨by simp, .refl r⟩

theorem hasAtHand_passTags (fault : Option Text) {line : Option Line} {r : LineReader}
    (h : r.HasAtHand line) :
    (passTags fault line r).reader.HasAtHand (passTags fault line r).line := by
  fun_induction passTags fault line r with
  | case1 fault r => exact h
  | case2 fault line r hopen tags hread ih => exact ih (hasAtHand_nextLine r)
  | case3 fault line r hopen hread ih => exact ih (hasAtHand_nextLine r)
  | case4 fault line r hopen hbetween ih => exact ih (hasAtHand_nextLine r)
  | case5 fault line r hopen hbetween => exact h

/-- The line after the tags opens no tag pair and is not passed over. -/
theorem line_passTags {fault : Option Text} {line : Option Line} {r : LineReader} {l : Line}
    (h : (passTags fault line r).line = some l) :
    opensTag l = false ∧ isEscapeLine l = false := by
  fun_induction passTags fault line r with
  | case1 fault r => cases h
  | case2 fault line r hopen tags hread ih => exact ih h
  | case3 fault line r hopen hread ih => exact ih h
  | case4 fault line r hopen hbetween ih => exact ih h
  | case5 fault line r hopen hbetween =>
    obtain rfl : line = l := Option.some.inj h
    simp only [isBetweenGames, Bool.or_eq_true, not_or, Bool.not_eq_true] at hbetween
    exact ⟨by simpa using hopen, hbetween.2⟩

/-! ## Movetexts -/

/-- The reader has moved on and then, perhaps, given back the end of the line that it had read
last, which opens a tag pair. -/
inductive HasGivenBack (r : LineReader) : LineReader → Prop
  | nothing {r' : LineReader} (h : r.Precedes r') : HasGivenBack r r'
  | line {r' : LineReader} {last rest : Line} (h : r.Precedes r') (hlast : r'.lastRead = some last)
      (hrest : rest <:+ last) (hopen : opensTag rest = true) : HasGivenBack r (r'.pushBack rest)

theorem Precedes.hasGivenBack {r r' r'' : LineReader} (h : r.Precedes r')
    (h' : r'.HasGivenBack r'') : r.HasGivenBack r'' := by
  cases h' with
  | nothing h' => exact .nothing (h.trans h')
  | line h' hlast hrest hopen => exact .line (h.trans h') hlast hrest hopen

theorem movetext_after (r : LineReader) (events : List Event) (p : MovetextPassage) :
    (p.after (r.telling events)).movetext = p.movetext.after events := by
  simp [MovetextPassage.movetext, MovetextPassage.after, Movetext.after]

/-- To leave out the first line makes no difference to a test that the first line does not meet. -/
theorem not_isFirst_and {isFirst isOutside test : Bool} (h : isFirst = true → test = false) :
    (!isFirst && isOutside && test) = (isOutside && test) := by
  cases isFirst with
  | false => rfl
  | true => rw [h rfl, Bool.and_false, Bool.and_false]

/-- The lines of a movetext are scanned as if its first line were not looked at for a tag pair or a
percent sign, if that line starts with neither. -/
theorem scanLines_cons_of_isFirst (s : Cursor) {isFirst : Bool} {line : Line} (later : List Line)
    (hfirst : isFirst = true → opensTag line = false ∧ isEscapeLine line = false) :
    scanLines s (line :: later) =
      if !isFirst && s.comment.isNone && opensTag line then ⟨[], .complete, line :: later⟩
      else if !isFirst && s.comment.isNone && isEscapeLine line then scanLines s later
      else match scanLine s [] line with
        | ⟨events, .endOfLine s⟩ => (scanLines s later).after events
        | ⟨events, .nextGame rest⟩ => ⟨events, .complete, rest :: later⟩
        | ⟨events, .oversizedNag e⟩ => ⟨events, .oversizedNag e, later⟩ := by
  rw [not_isFirst_and fun h => (hfirst h).1, not_isFirst_and fun h => (hfirst h).2]
  rfl

/-- **A movetext is read** as it is from the list of all lines. -/
theorem movetext_passMovetext (s : Cursor) (isFirst : Bool) {line : Option Line} {r : LineReader}
    (h : r.HasAtHand line)
    (hfirst : isFirst = true → ∀ l, line = some l → opensTag l = false ∧ isEscapeLine l = false) :
    (passMovetext s isFirst line r).movetext = scanLines s (r.ahead line) := by
  fun_induction passMovetext s isFirst line r with
  | case1 s isFirst r hs =>
    rw [ahead_none, h.upcoming rfl, scanLines, hs, MovetextPassage.movetext, h.upcoming rfl]
    rfl
  | case2 s isFirst r body hs =>
    rw [ahead_none, h.upcoming rfl, scanLines, hs, MovetextPassage.movetext, h.upcoming rfl]
    simp only
    split <;> rfl
  | case3 s isFirst line r hopen =>
    rw [ahead_some, scanLines_cons_of_isFirst s _ fun hf => hfirst hf line rfl, if_pos hopen]
    rfl
  | case4 s isFirst line r hopen hescape ih =>
    rw [ahead_some, scanLines_cons_of_isFirst s _ fun hf => hfirst hf line rfl, if_neg hopen,
      if_pos hescape, ih (hasAtHand_nextLine r) (by simp), ahead_nextLine]
  | case5 s isFirst line r hopen hescape events s' hscan ih =>
    rw [ahead_some, scanLines_cons_of_isFirst s _ fun hf => hfirst hf line rfl, if_neg hopen,
      if_neg hescape, hscan, movetext_after, ih (hasAtHand_nextLine r) (by simp), ahead_nextLine]
  | case6 s isFirst line r hopen hescape events rest hscan =>
    rw [ahead_some, scanLines_cons_of_isFirst s _ fun hf => hfirst hf line rfl, if_neg hopen,
      if_neg hescape, hscan, MovetextPassage.movetext, map_event_telling]
    rfl
  | case7 s isFirst line r hopen hescape events e hscan =>
    rw [ahead_some, scanLines_cons_of_isFirst s _ fun hf => hfirst hf line rfl, if_neg hopen,
      if_neg hescape, hscan, MovetextPassage.movetext, map_event_telling]

/-- In a movetext the reader moves on, and it gives back one line at most, at the end. -/
theorem hasGivenBack_passMovetext (s : Cursor) (isFirst : Bool) {line : Option Line}
    {r : LineReader} (h : r.HasAtHand line) :
    (∀ m ∈ (passMovetext s isFirst line r).moments, r.Precedes m.reader) ∧
      r.HasGivenBack (passMovetext s isFirst line r).reader := by
  fun_induction passMovetext s isFirst line r with
  | case1 s isFirst r hs => exact ⟨by simp, .nothing (.refl r)⟩
  | case2 s isFirst r body hs =>
    refine ⟨fun m hm => ?_, .nothing (.refl r)⟩
    simp only at hm
    split at hm
    · exact precedes_of_mem_telling hm
    · simp at hm
  | case3 s isFirst line r hopen =>
    simp only [Bool.and_eq_true] at hopen
    exact ⟨by simp, .line (.refl r) (h.lastRead line rfl) List.suffix_rfl hopen.2⟩
  | case4 s isFirst line r hopen hescape ih =>
    obtain ⟨hmoments, hback⟩ := ih (hasAtHand_nextLine r)
    exact ⟨fun m hm => (Precedes.nextLine r).trans (hmoments m hm),
      (Precedes.nextLine r).hasGivenBack hback⟩
  | case5 s isFirst line r hopen hescape events s' hscan ih =>
    obtain ⟨hmoments, hback⟩ := ih (hasAtHand_nextLine r)
    refine ⟨fun m hm => ?_, (Precedes.nextLine r).hasGivenBack hback⟩
    rcases List.mem_append.1 hm with hm | hm
    · exact precedes_of_mem_telling hm
    · exact (Precedes.nextLine r).trans (hmoments m hm)
  | case6 s isFirst line r hopen hescape events rest hscan =>
    exact ⟨fun m hm => precedes_of_mem_telling hm, .line (.refl r) (h.lastRead line rfl)
      (rest_of_nextGame hscan).1 (opensTag_of_nextGame hscan)⟩
  | case7 s isFirst line r hopen hescape events e hscan =>
    exact ⟨fun m hm => precedes_of_mem_telling hm, .nothing (.refl r)⟩

/-! ## Games -/

/-- **A game is read** as it is from the list of all lines. -/
theorem tellGame_eq {r : LineReader} {line : Line} (h : r.HasAtHand (some line)) :
    ((tellGame line r).1.transcript, (tellGame line r).2.upcoming)
      = gameFrom (line :: r.upcoming) := by
  obtain ⟨htags, hfault, hbody⟩ := passTags_eq none h
  have hmovetext := movetext_passMovetext .start true (hasAtHand_passTags none h)
    fun _ l hl => line_passTags hl
  rw [hbody, MovetextPassage.movetext] at hmovetext
  rw [ahead_some] at htags hfault hmovetext
  rw [Option.none_or] at hfault
  simp only [tellGame, ToldGame.transcript, gameFrom, ← hmovetext, hfault, List.map_append,
    map_event_telling, htags]
  split <;> simp

/-- Over a game the reader moves on, and when the end of the game is told it is where the game
leaves it. -/
theorem precedes_tellGame {r : LineReader} {line : Line} (h : r.HasAtHand (some line)) :
    (∀ m ∈ (tellGame line r).1.moments, r.Precedes m.reader ∨ m.reader = (tellGame line r).2) ∧
      r.HasGivenBack (tellGame line r).2 := by
  obtain ⟨hhead, hreader⟩ := precedes_passTags none (some line) r
  obtain ⟨hbody, hback⟩ := hasGivenBack_passMovetext .start true (hasAtHand_passTags none h)
  refine ⟨fun m hm => ?_, hreader.hasGivenBack hback⟩
  rcases List.mem_append.1 hm with hm | hm
  · refine Or.inl ?_
    rcases List.mem_append.1 hm with hm | hm
    · rcases List.mem_append.1 hm with hm | hm
      · rcases List.mem_append.1 hm with hm | hm
        · exact precedes_of_mem_telling hm
        · exact hhead m hm
      · exact hreader.trans (precedes_of_mem_telling hm)
    · exact hreader.trans (hbody m hm)
  · refine Or.inr ?_
    split at hm
    · obtain ⟨_, _, rfl⟩ := List.mem_map.1 hm
      rfl
    · simp at hm

/-- What a call does that finds a game: the game and what it leaves are those of the list of all
lines, and everything is told behind the line that the game starts with. -/
structure Finds (r : LineReader) (g : ToldGame) (line : Line) (start : LineReader) : Prop where
  game : r.readGame.game = some g
  readGame_upcoming : Pgn.readGame r.upcoming = some (g.transcript, r.readGame.reader.upcoming)
  isBetweenGames_line : isBetweenGames line = false
  suffix : line :: start.upcoming <:+ r.upcoming
  precedes : r.nextLine.2.Precedes start
  moments : ∀ m ∈ g.moments, start.Precedes m.reader ∨ m.reader = r.readGame.reader
  hasGivenBack : start.HasGivenBack r.readGame.reader

/-- What a call does that finds no game: it reads all lines. -/
structure FindsNone (r : LineReader) : Prop where
  game : r.readGame.game = none
  readGame_upcoming : Pgn.readGame r.upcoming = none
  upcoming : r.readGame.reader.upcoming = []

/-- **A call** finds the game that is read from the list of all lines, or none if there is none. -/
theorem finds_or_findsNone (r : LineReader) :
    (∃ g line start, r.Finds g line start) ∨ r.FindsNone := by
  have hskip := ahead_skip (hasAtHand_nextLine r)
  have hathand := hasAtHand_skip (hasAtHand_nextLine r)
  have hprecedes := precedes_skip r.nextLine.1 r.nextLine.2
  rw [ahead_nextLine] at hskip
  rcases hs : skip r.nextLine.1 r.nextLine.2 with ⟨_ | line, start⟩
  · have hcall : r.readGame = ⟨none, start⟩ := by rw [readGame, hs]
    rw [hs] at hskip hathand
    rw [ahead_none, hathand.upcoming rfl] at hskip
    refine Or.inr ⟨by rw [hcall], ?_, by rw [hcall]; exact hathand.upcoming rfl⟩
    rw [Pgn.readGame, ← hskip]
  · have hcall : r.readGame = ⟨some (tellGame line start).1, (tellGame line start).2⟩ := by
      rw [readGame, hs]
    rw [hs] at hskip hathand hprecedes
    rw [ahead_some] at hskip
    obtain ⟨hmoments, hback⟩ := precedes_tellGame hathand
    refine Or.inl ⟨(tellGame line start).1, line, start, ?_⟩
    constructor
    case game => rw [hcall]
    case readGame_upcoming => rw [hcall, Pgn.readGame, ← hskip, tellGame_eq hathand]
    case isBetweenGames_line => exact not_isBetweenGames_of_dropWhile hskip.symm
    case suffix => exact hskip ▸ List.dropWhile_suffix _
    case precedes => exact hprecedes
    case moments => rw [hcall]; exact hmoments
    case hasGivenBack => rw [hcall]; exact hback

/-- Reading line by line comes to the same as reading from the list of all lines. -/
theorem readGame_eq (r : LineReader) :
    r.readGame.game.map (fun g => (g.transcript, r.readGame.reader.upcoming))
      = Pgn.readGame r.upcoming := by
  rcases r.finds_or_findsNone with ⟨g, line, start, hfinds⟩ | hnone
  · rw [hfinds.game, hfinds.readGame_upcoming]
    rfl
  · rw [hnone.game, hnone.readGame_upcoming]
    rfl

end LineReader

end Scoresheet.Pgn
