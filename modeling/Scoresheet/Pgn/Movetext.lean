import Scoresheet.Pgn.Word

/-!
# Movetext

The movetext of a game is scanned line by line and, in a line, character by character. What has to
be known from before is a `Cursor`: how many parentheses are open, whether the result has been
read, and the text of a comment that is still open.

Only the main line is reported. A line whose first character other than white space is a bracket
starts the next game, as does a bracket between words once the result has been read; such text is
given back unread. A line that starts with a percent sign is passed over, and a semicolon ends a
line early. None of these has a meaning inside a comment.
-/

namespace Scoresheet.Pgn

open Text

/-! ## Lines -/

/-- A line that opens a tag pair. -/
def opensTag (line : Line) : Bool := (trimLeft line).head? == some '['

/-- A line that is to be passed over whole. -/
def isEscapeLine (line : Line) : Bool := line.head? == some '%'

/-! ## The cursor -/

/-- What the text before a place says about how to read on. -/
structure Cursor where
  /-- The number of open parentheses. -/
  depth : Nat
  /-- The result has been read. -/
  finished : Bool
  /-- The text of the open comment, its last character first. -/
  comment : Option Text
  deriving DecidableEq, Repr

namespace Cursor

/-- The start of a movetext. -/
def start : Cursor := ⟨0, false, none⟩

/-- Words count on the main line and until the result. -/
def readsWords (s : Cursor) : Bool := s.depth == 0 && !s.finished

/-- The events of a word, and the cursor after it. -/
def readWord (s : Cursor) (word : Text) : Except OversizedNumeral (List Event × Cursor) :=
  if s.readsWords then
    match outcomeMarker? word with
    | some marker => .ok ([.outcome marker], { s with finished := true })
    | none => (wordEvents word).map fun events => (events, s)
  else .ok ([], s)

/-- The events of a character that ends a word, and the cursor after it. -/
def readBreak (s : Cursor) (c : Char) : List Event × Cursor :=
  if c = '{' then ([], { s with comment := some [] })
  else if c = '(' then
    (if s.readsWords then [.beginVariation] else [], { s with depth := s.depth + 1 })
  else if c = ')' then ([], { s with depth := s.depth - 1 })
  else ([], s)

end Cursor

/-- A character that ends a word. -/
def isWordBreak (c : Char) : Bool :=
  isBlank c || c == '{' || c == '}' || c == '(' || c == ')' || c == ';'

/-! ## One line -/

/-- Why the scan of a line ended. -/
inductive LineStop
  | endOfLine (cursor : Cursor)
  /-- The rest of the line belongs to the next game. -/
  | nextGame (rest : Line)
  | oversizedNag (numeral : OversizedNumeral)
  deriving DecidableEq, Repr

/-- The events of a line and why its scan ended. -/
structure LineScan where
  events : List Event
  stop : LineStop
  deriving DecidableEq, Repr

/-- The scan with events put in front. -/
def LineScan.after (events : List Event) (scan : LineScan) : LineScan :=
  { scan with events := events ++ scan.events }

/-- Scans a line from a cursor, given the word in progress with its last character first. -/
def scanLine (s : Cursor) (word : Text) : Line → LineScan
  | [] => match s.readWord word.reverse with
    | .ok (events, s) => ⟨events, .endOfLine s⟩
    | .error e => ⟨[], .oversizedNag e⟩
  | c :: cs => match s.comment with
    | some body =>
      if c = '}' then
        (scanLine { s with comment := none } [] cs).after
          (if s.depth = 0 then [.comment body.reverse] else [])
      else scanLine { s with comment := some (c :: body) } [] cs
    | none =>
      if s.finished && s.depth == 0 && word.isEmpty && c == '[' then ⟨[], .nextGame (c :: cs)⟩
      else if isWordBreak c then
        match s.readWord word.reverse with
        | .error e => ⟨[], .oversizedNag e⟩
        | .ok (events, s) =>
          if c = ';' then ⟨events, .endOfLine s⟩
          else (scanLine (s.readBreak c).2 [] cs).after (events ++ (s.readBreak c).1)
      else scanLine s (c :: word) cs

/-! ## All lines -/

/-- How the movetext of a game ended. -/
inductive MovetextEnd
  | complete
  | unterminatedComment
  | oversizedNag (numeral : OversizedNumeral)
  deriving DecidableEq, Repr

/-- The events of a movetext, how it ended, and the lines after it. -/
structure Movetext where
  events : List Event
  ending : MovetextEnd
  rest : List Line
  deriving DecidableEq, Repr

/-- The movetext with events put in front. -/
def Movetext.after (events : List Event) (m : Movetext) : Movetext :=
  { m with events := events ++ m.events }

/-- Scans the lines of a movetext from a cursor. -/
def scanLines (s : Cursor) : List Line → Movetext
  | [] => match s.comment with
    | none => ⟨[], .complete, []⟩
    | some body =>
      ⟨if s.depth = 0 then [.partialComment body.reverse] else [], .unterminatedComment, []⟩
  | line :: lines =>
    if s.comment.isNone && opensTag line then ⟨[], .complete, line :: lines⟩
    else if s.comment.isNone && isEscapeLine line then scanLines s lines
    else match scanLine s [] line with
      | ⟨events, .endOfLine s⟩ => (scanLines s lines).after events
      | ⟨events, .nextGame rest⟩ => ⟨events, .complete, rest :: lines⟩
      | ⟨events, .oversizedNag e⟩ => ⟨events, .oversizedNag e, lines⟩

/-! ## What is given back -/

/-- The number of lines and characters still to be read. -/
def remaining (lines : List Line) : Nat := lines.length + lines.flatten.length

theorem remaining_cons (line : Line) (lines : List Line) :
    remaining (line :: lines) = line.length + remaining lines + 1 := by
  simp only [remaining, List.length_cons, List.flatten_cons, List.length_append]
  omega

/-- What a line gives back is no longer than the line. -/
theorem length_rest_le {s : Cursor} {word : Text} {line : Line} {events : List Event}
    {rest : Line} (h : scanLine s word line = ⟨events, .nextGame rest⟩) :
    rest.length ≤ line.length := by
  induction line generalizing s word events with
  | nil =>
    rw [scanLine] at h
    split at h <;> simp at h
  | cons c cs ih =>
    have step : ∀ {s word pre}, (scanLine s word cs).after pre = ⟨events, .nextGame rest⟩ →
        rest.length ≤ (c :: cs).length := by
      intro s word pre h
      simp only [LineScan.after, LineScan.mk.injEq] at h
      have hscan : scanLine s word cs = ⟨(scanLine s word cs).events, .nextGame rest⟩ := by
        rw [← h.2]
      have := ih hscan
      simp only [List.length_cons]
      omega
    rw [scanLine] at h
    split at h
    · split at h
      · exact step h
      · exact Nat.le_succ_of_le (ih h)
    · split at h
      · simp only [LineScan.mk.injEq, LineStop.nextGame.injEq] at h
        exact Nat.le_of_eq (congrArg List.length h.2.symm)
      · split at h
        · split at h
          · simp at h
          · split at h
            · simp at h
            · exact step h
        · exact Nat.le_succ_of_le (ih h)

/-- Before the result, a line that gives text back has been read in part. -/
theorem length_rest_lt {s : Cursor} {word : Text} {line : Line} {events : List Event}
    {rest : Line} (hs : s.finished = false)
    (h : scanLine s word line = ⟨events, .nextGame rest⟩) : rest.length < line.length := by
  cases line with
  | nil =>
    rw [scanLine] at h
    split at h <;> simp at h
  | cons c cs =>
    have step : ∀ {s word pre}, (scanLine s word cs).after pre = ⟨events, .nextGame rest⟩ →
        rest.length < (c :: cs).length := by
      intro s word pre h
      simp only [LineScan.after, LineScan.mk.injEq] at h
      have hscan : scanLine s word cs = ⟨(scanLine s word cs).events, .nextGame rest⟩ := by
        rw [← h.2]
      have := length_rest_le hscan
      simp only [List.length_cons]
      omega
    rw [scanLine] at h
    split at h
    · split at h
      · exact step h
      · exact Nat.lt_succ_of_le (length_rest_le h)
    · simp only [hs, Bool.false_and, Bool.false_eq_true, if_false] at h
      split at h
      · split at h
        · simp at h
        · split at h
          · simp at h
          · exact step h
      · exact Nat.lt_succ_of_le (length_rest_le h)

theorem remaining_scanLines_le (s : Cursor) (lines : List Line) :
    remaining (scanLines s lines).rest ≤ remaining lines := by
  induction lines generalizing s with
  | nil =>
    rw [scanLines]
    split <;> exact Nat.le_refl _
  | cons line lines ih =>
    rw [scanLines]
    split
    · exact Nat.le_refl _
    · split
      · rw [remaining_cons]
        have := ih s
        omega
      · split
        · rename_i s' _
          have := ih s'
          simp only [Movetext.after, remaining_cons]
          omega
        · rename_i h
          have := length_rest_le h
          simp only [remaining_cons]
          omega
        · simp only [remaining_cons]
          omega

/-- A movetext that starts before the result uses up its first line, unless that line opens a
tag pair. -/
theorem remaining_scanLines_lt {s : Cursor} {line : Line} {lines : List Line}
    (hs : s.finished = false) (hl : opensTag line = false) :
    remaining (scanLines s (line :: lines)).rest < remaining (line :: lines) := by
  rw [scanLines]
  simp only [hl, Bool.and_false, Bool.false_eq_true, if_false, remaining_cons]
  split
  · have := remaining_scanLines_le s lines
    omega
  · split
    · rename_i s' _
      have := remaining_scanLines_le s' lines
      simp only [Movetext.after]
      omega
    · rename_i h
      have := length_rest_lt hs h
      simp only [remaining_cons]
      omega
    · simp only
      omega

end Scoresheet.Pgn
