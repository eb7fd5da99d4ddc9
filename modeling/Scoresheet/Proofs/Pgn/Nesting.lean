import Scoresheet.Proofs.Pgn.GameText

/-!
# What is open at the end of a text

Which parentheses and which comment are open at a place of a movetext can be told from its brackets
alone, without reading a word (`Openings`). A scan keeps track of the same (`openings_of_scanLine`),
so it reports a comment that is cut off exactly if one is open where the input ends
(`ending_scanLines`).

The lines before a movetext are told apart by their first characters, so what is wrong with a game
is a matter of its lines as well: `error_gameFrom` gives it in these terms.
-/

namespace Scoresheet.Pgn

open Text

/-! ## Brackets -/

/-- The open parentheses and whether a comment is open. -/
structure Openings where
  parens : Nat
  comment : Bool
  deriving DecidableEq, Repr

namespace Openings

def closed : Openings := ⟨0, false⟩

/-- Goes on over the characters of a line, up to a semicolon outside comments. -/
def overLine (o : Openings) : Line → Openings
  | [] => o
  | c :: cs =>
    if o.comment then overLine { o with comment := c != '}' } cs
    else if c = ';' then o
    else if c = '{' then overLine { o with comment := true } cs
    else if c = '(' then overLine { o with parens := o.parens + 1 } cs
    else if c = ')' then overLine { o with parens := o.parens - 1 } cs
    else overLine o cs

/-- Goes on over lines. Outside comments the lines that start with a percent sign do not count. -/
def overLines (o : Openings) : List Line → Openings
  | [] => o
  | line :: lines =>
    if !o.comment && isEscapeLine line then o.overLines lines
    else (o.overLine line).overLines lines

end Openings

namespace Cursor

def openings (s : Cursor) : Openings := ⟨s.depth, s.comment.isSome⟩

theorem isNone_comment (s : Cursor) : s.comment.isNone = !s.openings.comment := by
  rw [openings]
  cases s.comment <;> rfl

theorem openings_of_eq_none {s : Cursor} (h : s.comment = none) :
    s.openings = ⟨s.depth, false⟩ := by
  rw [openings, h]
  rfl

theorem openings_of_eq_some {s : Cursor} {body : Text} (h : s.comment = some body) :
    s.openings = ⟨s.depth, true⟩ := by
  rw [openings, h]
  rfl

/-- A word opens and closes nothing. -/
theorem openings_of_readWord {s s' : Cursor} {word : Text} {events : List Event}
    (h : s.readWord word = .ok (events, s')) : s'.openings = s.openings := by
  rcases readWord_cases h with ⟨_, _, _, _, rfl⟩ | ⟨_, _, rfl⟩ | ⟨_, _, rfl⟩ <;> rfl

/-- A character that ends a word opens and closes what it shows. -/
theorem overLine_openings_readBreak {s : Cursor} (hs : s.comment = none) {c : Char}
    (hc : c ≠ ';') (cs : Line) :
    (s.readBreak c).2.openings.overLine cs = s.openings.overLine (c :: cs) := by
  rw [openings_of_eq_none hs, Openings.overLine, if_neg (by simp), if_neg hc, readBreak]
  split
  · rfl
  · split
    · simp [openings, hs]
    · split <;> simp [openings, hs]

end Cursor

/-! ## Scans -/

/-- **A scan keeps track of the brackets.** -/
theorem openings_of_scanLine {line : Line} {s s' : Cursor} {word : Text}
    (h : (scanLine s word line).stop = .endOfLine s') :
    s'.openings = s.openings.overLine line := by
  induction line generalizing s word with
  | nil =>
    rw [scanLine] at h
    cases hw : s.readWord word.reverse with
    | error e => simp [hw] at h
    | ok r =>
      simp only [hw, LineStop.endOfLine.injEq] at h
      rw [← h, Openings.overLine, Cursor.openings_of_readWord hw]
  | cons c cs ih =>
    rw [scanLine] at h
    cases hs : s.comment with
    | some body =>
      rw [Cursor.openings_of_eq_some hs, Openings.overLine, if_pos rfl]
      simp only [hs] at h
      -- only the closing brace ends a comment
      by_cases hc : c = '}'
      · rw [if_pos hc] at h
        rw [ih h, hc]
        rfl
      · rw [if_neg hc] at h
        rw [ih h, bne_iff_ne.2 hc]
        rfl
    | none =>
      simp only [hs] at h
      split at h
      · simp at h
      · split at h
        · cases hw : s.readWord word.reverse with
          | error e => simp [hw] at h
          | ok r =>
            obtain ⟨events, u⟩ := r
            have hu : u.comment = none := by rw [Cursor.comment_of_readWord hw, hs]
            have hopen := Cursor.openings_of_readWord hw
            simp only [hw] at h
            by_cases hsemi : c = ';'
            · rw [if_pos hsemi] at h
              simp only [LineStop.endOfLine.injEq] at h
              rw [← h, hopen, Cursor.openings_of_eq_none hs, Openings.overLine, if_neg (by simp),
                if_pos hsemi]
            · rw [if_neg hsemi] at h
              rw [ih h, Cursor.overLine_openings_readBreak hu hsemi, hopen]
        · rename_i hbreak
          rw [ih h]
          -- a character of a word is none of the brackets
          simp only [isWordBreak, Bool.or_eq_true, beq_iff_eq, not_or] at hbreak
          obtain ⟨⟨⟨⟨⟨_, hbrace⟩, _⟩, hparen⟩, hclose⟩, hsemi⟩ := hbreak
          rw [Cursor.openings_of_eq_none hs, Openings.overLine, if_neg (by simp), if_neg hsemi,
            if_neg hbrace, if_neg hparen, if_neg hclose]

/-- How a scan of lines can end, and what is open there. -/
inductive ScanOutcome (o : Openings) : MovetextEnd → List Line → Prop
  | ended : o.comment = false → ScanOutcome o .complete []
  | cut : o.comment = true → ScanOutcome o .unterminatedComment []
  | nextGame (line : Line) (lines : List Line) : ScanOutcome o .complete (line :: lines)
  | oversizedNag (e : OversizedNumeral) (lines : List Line) : ScanOutcome o (.oversizedNag e) lines

theorem scanOutcome_scanLines (lines : List Line) (s : Cursor) :
    ScanOutcome (s.openings.overLines lines) (scanLines s lines).ending
      (scanLines s lines).rest := by
  induction lines generalizing s with
  | nil =>
    rw [scanLines, Openings.overLines]
    cases hs : s.comment with
    | none => exact .ended (by rw [Cursor.openings_of_eq_none hs])
    | some body => exact .cut (by rw [Cursor.openings_of_eq_some hs])
  | cons line lines ih =>
    rw [scanLines, Openings.overLines, s.isNone_comment]
    by_cases hopen : (!s.openings.comment && opensTag line) = true
    · rw [if_pos hopen]
      exact .nextGame _ _
    · rw [if_neg hopen]
      by_cases hescape : (!s.openings.comment && isEscapeLine line) = true
      · rw [if_pos hescape, if_pos hescape]
        exact ih s
      · rw [if_neg hescape, if_neg hescape]
        rcases hscan : scanLine s [] line with ⟨events, s' | rest | e⟩
        · have hopen : s'.openings = s.openings.overLine line :=
            openings_of_scanLine (by rw [hscan])
          rw [← hopen]
          exact ih s'
        · exact .nextGame _ _
        · exact .oversizedNag _ _

/-- **A comment is reported as cut off if one is open where the input ends.** -/
theorem ending_scanLines {lines : List Line} {s : Cursor}
    (hread : ∀ e, (scanLines s lines).ending ≠ .oversizedNag e) :
    (scanLines s lines).ending =
      if (scanLines s lines).rest = [] ∧ (s.openings.overLines lines).comment = true
        then .unterminatedComment else .complete := by
  have hout := scanOutcome_scanLines lines s
  generalize (scanLines s lines).ending = ending at hread hout ⊢
  generalize (scanLines s lines).rest = rest at hout ⊢
  cases hout with
  | ended hopen => simp [hopen]
  | cut hopen => simp [hopen]
  | nextGame line lines => simp
  | oversizedNag e lines => exact absurd rfl (hread e)

/-! ## The lines of a game -/

/-- A line that comes before the movetext of a game. -/
def precedesMovetext (line : Line) : Bool := opensTag line || isBetweenGames line

def isMalformedTagLine (line : Line) : Bool := opensTag line && (Tag.readLine? (trim line)).isNone

/-- The first malformed tag line of the game at the front of the lines. -/
def badTagLine? (lines : List Line) : Option Line :=
  (lines.takeWhile precedesMovetext).find? isMalformedTagLine

/-- What is open at the end of the lines, if the game at their front reaches so far. -/
def openAtEnd (lines : List Line) : Openings :=
  Openings.closed.overLines (lines.dropWhile precedesMovetext)

theorem body_readTags (lines : List Line) :
    (readTags lines).body = lines.dropWhile precedesMovetext := by
  fun_induction readTags lines with
  | case1 => rfl
  | case2 line lines hopen rest tags _ ih =>
    rw [List.dropWhile_cons_of_pos (by rw [precedesMovetext, hopen]; rfl)]
    exact ih
  | case3 line lines hopen rest _ ih =>
    rw [List.dropWhile_cons_of_pos (by rw [precedesMovetext, hopen]; rfl)]
    exact ih
  | case4 line lines _ hbetween ih =>
    rw [List.dropWhile_cons_of_pos (by rw [precedesMovetext, isBetweenGames, hbetween]; simp)]
    exact ih
  | case5 line lines hopen hbetween =>
    rw [List.dropWhile_cons_of_neg (by simp [precedesMovetext, isBetweenGames, hopen, hbetween])]

theorem fault_readTags (lines : List Line) :
    (readTags lines).fault = (badTagLine? lines).map trim := by
  unfold badTagLine?
  fun_induction readTags lines with
  | case1 => rfl
  | case2 line lines hopen rest tags hread ih =>
    rw [List.takeWhile_cons_of_pos (by rw [precedesMovetext, hopen]; rfl),
      List.find?_cons_of_neg (by simp [isMalformedTagLine, hread])]
    exact ih
  | case3 line lines hopen rest hread ih =>
    rw [List.takeWhile_cons_of_pos (by rw [precedesMovetext, hopen]; rfl),
      List.find?_cons_of_pos (by simp [isMalformedTagLine, hopen, hread])]
    rfl
  | case4 line lines hopen hbetween ih =>
    rw [List.takeWhile_cons_of_pos (by rw [precedesMovetext, isBetweenGames, hbetween]; simp),
      List.find?_cons_of_neg (by simp [isMalformedTagLine, hopen])]
    exact ih
  | case5 line lines hopen hbetween =>
    rw [List.takeWhile_cons_of_neg (by simp [precedesMovetext, isBetweenGames, hopen, hbetween])]
    rfl

theorem openAtEnd_eq (lines : List Line) :
    openAtEnd lines = Cursor.start.openings.overLines (readTags lines).body := by
  rw [body_readTags]
  rfl

/-- **What is wrong with a game**: that the input ends in a comment, or else its first malformed tag
line. -/
theorem error_gameFrom {lines : List Line} (hread : (gameFrom lines).1.isOversized = false) :
    (gameFrom lines).1.error =
      if (gameFrom lines).2 = [] ∧ (openAtEnd lines).comment = true
        then some (.malformed .unterminatedComment)
        else (badTagLine? lines).map fun line => .malformed (.badTagLine (trim line)) := by
  have hending : ∀ e, (scanLines .start (readTags lines).body).ending ≠ .oversizedNag e := by
    intro e he
    simp [Transcript.isOversized, gameFrom, he, gameError] at hread
  have hend := ending_scanLines hending
  rw [← openAtEnd_eq] at hend
  by_cases hcut : (gameFrom lines).2 = [] ∧ (openAtEnd lines).comment = true
  · rw [if_pos hcut]
    rw [if_pos (by exact hcut)] at hend
    show gameError _ (scanLines .start (readTags lines).body).ending = _
    rw [hend]
    rfl
  · rw [if_neg hcut]
    rw [if_neg (by exact hcut)] at hend
    show gameError _ (scanLines .start (readTags lines).body).ending = _
    rw [hend, fault_readTags, gameError, Option.map_map]
    rfl

end Scoresheet.Pgn
