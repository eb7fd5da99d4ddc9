import Mathlib.Data.Bool.AllAny
import Scoresheet.Proofs.Pgn.GameTokens
import Scoresheet.Proofs.Pgn.Hearing

/-!
# Calls within calls

A word with a move number glued to its front is dispatched by a call for what stands behind the
number, and that call may find another number there. So the calls nest as deep as there are numbers
(`droppedNumbers`), and whoever runs them may allow only so many at a time. Here the reading with a
listener is told how many (`hearGameWithin`): a word that takes more cannot be reported
(`WordFault.nestedTooDeep`), nor can an annotation of too many digits.

The tokens of a game do not depend on what can be reported. So the reading tells them one after
another up to the first with a fault, and if there is none it is the reading without a bound
(`hearGameWithin_eq`). With more calls than a word has digits none is nested too deep
(`hasFaultyToken_iff_of_countP_lt`).
-/

namespace Scoresheet.Pgn

open Text Scoresheet.Chess

variable {σ : Type} {calls : Nat}

/-! ## Words -/

/-- Why a word cannot be reported. -/
inductive WordFault
  | oversized (numeral : OversizedNumeral)
  /-- More calls would have to be nested than are allowed. -/
  | nestedTooDeep
  deriving DecidableEq, Repr

/-- The events of one word of the main line, if no more than `calls` calls may be nested, this one
among them. -/
def dispatch : Nat → Text → Except WordFault (List Event)
  | 0, _ => .error .nestedTooDeep
  | _ + 1, [] => .ok []
  | calls + 1, c :: cs =>
    if c = '$' then
      if isNumeral cs then ((readNumeral cs).map fun n => [.nag n]).mapError .oversized else .ok []
    else match glyphCode? (c :: cs) with
      | some code => .ok [.nag code]
      | none => match moveEvents? (c :: cs) with
        | some events => .ok events
        | none =>
          if isDecimalDigit c = true ∧ dropMoveNumber (c :: cs) ≠ [] then
            dispatch calls (dropMoveNumber (c :: cs))
          else .ok []

/-- The number of move numbers that are dropped from the front of a word, each by a call for what
stands behind it. A word that is a move is left as it is. -/
def droppedNumbers : Text → Nat
  | [] => 0
  | c :: cs =>
    if isDecimalDigit c = true ∧ moveEvents? (c :: cs) = none ∧ dropMoveNumber (c :: cs) ≠ [] then
      droppedNumbers (dropMoveNumber (c :: cs)) + 1
    else 0
termination_by word => word.length
decreasing_by exact length_dropMoveNumber_lt (And.left ‹_›) cs

theorem droppedNumbers_of_not_isDecimalDigit {c : Char} (hc : isDecimalDigit c = false) (w : Text) :
    droppedNumbers (c :: w) = 0 := by
  rw [droppedNumbers, if_neg (by simp [hc])]

/-- A word has no more numbers in front than digits. -/
theorem droppedNumbers_le_countP (w : Text) : droppedNumbers w ≤ w.countP isDecimalDigit := by
  fun_induction droppedNumbers w with
  | case1 => exact Nat.le_refl 0
  | case2 c cs h ih =>
    have hdrop : dropMoveNumber (c :: cs) = dropMoveNumber cs := by
      rw [dropMoveNumber, List.dropWhile_cons_of_pos h.1]
      rfl
    have hle : (dropMoveNumber cs).countP isDecimalDigit ≤ cs.countP isDecimalDigit :=
      ((List.dropWhile_suffix _).trans (List.dropWhile_suffix _)).sublist.countP_le
    rw [hdrop] at ih ⊢
    rw [List.countP_cons_of_pos h.1]
    omega
  | case3 c cs h => exact Nat.zero_le _

/-- **A word is reported** as without a bound, or it takes a call more than there may be. -/
theorem dispatch_eq (calls : Nat) (w : Text) :
    dispatch calls w = if droppedNumbers w < calls then (wordEvents w).mapError .oversized
      else .error .nestedTooDeep := by
  induction calls generalizing w with
  | zero => rfl
  | succ calls ih =>
    cases w with
    | nil =>
      rw [dispatch, droppedNumbers, wordEvents]
      rfl
    | cons c cs =>
      rw [dispatch, droppedNumbers]
      by_cases hdigit : isDecimalDigit c = true
      · have hdollar : c ≠ '$' := by
          rintro rfl
          exact absurd hdigit (by decide)
        have hnumber : IsNumberChar c := Or.inl (by rw [isDigitLike, hdigit]; rfl)
        have hglyph := glyphCode?_eq_none cs hnumber.isGlyphChar
        rw [if_neg hdollar, hglyph]
        cases hmove : moveEvents? (c :: cs) with
        | some events =>
          rw [wordEvents, if_neg hdollar, hglyph, hmove]
          simp [Except.mapError]
        | none =>
          rw [wordEvents_of_isDecimalDigit hdigit hmove]
          by_cases hbehind : dropMoveNumber (c :: cs) = []
          · simp [hbehind, wordEvents, Except.mapError]
          · simp only [hdigit, hbehind, ne_eq, not_false_eq_true, and_self, if_true, ih,
              Nat.add_lt_add_iff_right]
      · -- without a digit in front no number is dropped
        simp only [hdigit, Bool.false_eq_true, false_and, if_false, if_pos (Nat.succ_pos calls)]
        rw [wordEvents]
        by_cases hdollar : c = '$'
        · rw [if_pos hdollar, if_pos hdollar]
          split <;> rfl
        · rw [if_neg hdollar, if_neg hdollar]
          cases glyphCode? (c :: cs) with
          | some code => rfl
          | none => cases moveEvents? (c :: cs) <;> simp [hdigit, Except.mapError]

/-! ## Tokens -/

namespace Token

/-- What a token reports, if no more than `calls` calls may be nested for it. -/
def reportWithin (calls : Nat) : Token → Except WordFault (List Event)
  | word w => match outcomeMarker? w with
    | some marker => .ok [.outcome marker]
    | none => dispatch calls w
  | token => token.report.mapError .oversized

/-- Why a token cannot be reported. -/
def fault? (calls : Nat) (token : Token) : Option WordFault :=
  match token.reportWithin calls with
  | .ok _ => none
  | .error fault => some fault

/-- More numbers are glued to the front of a word than there may be nested calls behind the
first. -/
def NestsBeyond (calls : Nat) : Token → Prop
  | word w => outcomeMarker? w = none ∧ calls ≤ droppedNumbers w
  | _ => False

/-- The token cannot be reported. -/
def IsFaulty (calls : Nat) (token : Token) : Prop := token.IsOversized ∨ token.NestsBeyond calls

theorem reportWithin_eq (calls : Nat) (token : Token) : (token.NestsBeyond calls ∧
      token.reportWithin calls = .error .nestedTooDeep) ∨
    ¬token.NestsBeyond calls ∧ token.reportWithin calls = token.report.mapError .oversized := by
  cases token with
  | word w =>
    rw [reportWithin, report]
    cases hm : outcomeMarker? w with
    | some marker =>
      refine Or.inr ⟨fun h => ?_, rfl⟩
      cases hm.symm.trans h.1
    | none =>
      simp only [dispatch_eq]
      by_cases h : droppedNumbers w < calls
      · exact Or.inr ⟨fun hdeep => absurd h (Nat.not_lt.2 hdeep.2), if_pos h⟩
      · exact Or.inl ⟨⟨hm, Nat.not_lt.1 h⟩, if_neg h⟩
  | _ => exact Or.inr ⟨id, rfl⟩

/-- **A token has a fault** exactly if it is an oversized annotation or has too many numbers in
front. -/
theorem isSome_fault?_iff (token : Token) :
    (token.fault? calls).isSome = true ↔ token.IsFaulty calls := by
  unfold fault? IsFaulty
  rw [← report_error_iff]
  rcases reportWithin_eq calls token with ⟨hdeep, hreport⟩ | ⟨hnot, hreport⟩
  · rw [hreport]
    exact iff_of_true rfl (Or.inr hdeep)
  · rw [hreport, or_iff_left hnot]
    cases token.report with
    | ok events => simp [Except.mapError]
    | error n => simp [Except.mapError]

theorem reportWithin_of_fault? {token : Token} (h : token.fault? calls = none) :
    token.reportWithin calls = .ok token.events := by
  have hnot : ¬token.IsFaulty calls := by
    rw [← isSome_fault?_iff, h]
    simp
  rcases reportWithin_eq calls token with ⟨hdeep, _⟩ | ⟨_, hreport⟩
  · exact absurd (Or.inr hdeep) hnot
  · rw [hreport, report_of_not_isOversized fun hover => hnot (Or.inl hover)]
    rfl

end Token

/-- Tells the events of tokens one after another, up to the first that cannot be reported. -/
def tellTokens (calls : Nat) (l : Listener σ) (h : Hearing σ) :
    List Token → Except WordFault (Hearing σ)
  | [] => .ok h
  | token :: tokens => match token.reportWithin calls with
    | .error fault => .error fault
    | .ok events => tellTokens calls l (h.tellAll l events) tokens

@[simp]
theorem tellTokens_nil (l : Listener σ) (h : Hearing σ) : tellTokens calls l h [] = .ok h := rfl

theorem tellTokens_append (l : Listener σ) (h : Hearing σ) (xs ys : List Token) :
    tellTokens calls l h (xs ++ ys)
      = (tellTokens calls l h xs).bind fun h => tellTokens calls l h ys := by
  induction xs generalizing h with
  | nil => rfl
  | cons x xs ih =>
    rw [List.cons_append, tellTokens, tellTokens]
    cases x.reportWithin calls with
    | error fault => rfl
    | ok events => exact ih _

/-- All tokens are told, or the first that cannot be reported ends it. -/
theorem tellTokens_eq (l : Listener σ) (h : Hearing σ) (tokens : List Token) :
    tellTokens calls l h tokens = match tokens.findSome? (Token.fault? calls) with
      | some fault => .error fault
      | none => .ok (h.tellAll l (tokens.flatMap Token.events)) := by
  induction tokens generalizing h with
  | nil => rfl
  | cons token tokens ih =>
    rw [tellTokens, List.findSome?_cons]
    cases hfault : token.fault? calls with
    | none =>
      rw [Token.reportWithin_of_fault? hfault, List.flatMap_cons, Hearing.tellAll_append]
      exact ih _
    | some fault =>
      unfold Token.fault? at hfault
      split at hfault
      · cases hfault
      · rename_i hreport
        rw [hreport, Option.some.inj hfault]

/-! ## The reading with a bound -/

/-- The events of a word, and the cursor after it. Only where words count is a call made. -/
def Cursor.dispatchWord (s : Cursor) (calls : Nat) (word : Text) :
    Except WordFault (List Event × Cursor) :=
  if s.readsWords && !word.isEmpty then
    match outcomeMarker? word with
    | some marker => .ok ([.outcome marker], { s with finished := true })
    | none => (dispatch calls word).map fun events => (events, s)
  else .ok ([], s)

/-- Scans a line and tells its events. -/
def hearLineWithin (calls : Nat) (l : Listener σ) (s : Cursor) (word : Text) (h : Hearing σ) :
    Line → Except WordFault (Hearing σ × LineEnd)
  | [] => (s.dispatchWord calls word.reverse).map fun (events, s) =>
      (h.tellAll l events, .endOfLine s)
  | c :: cs => match s.comment with
    | some body =>
      if c = '}' then
        hearLineWithin calls l { s with comment := none } []
          (if s.depth = 0 then h.tell l (.comment body.reverse) else h) cs
      else hearLineWithin calls l { s with comment := some (c :: body) } [] h cs
    | none =>
      if s.finished && s.depth == 0 && word.isEmpty && c == '[' then .ok (h, .nextGame (c :: cs))
      else if isWordBreak c then
        match s.dispatchWord calls word.reverse with
        | .error fault => .error fault
        | .ok (events, s) =>
          if c = ';' then .ok (h.tellAll l events, .endOfLine s)
          else hearLineWithin calls l (s.readBreak c).2 []
            (h.tellAll l (events ++ (s.readBreak c).1)) cs
      else hearLineWithin calls l s (c :: word) h cs

/-- Scans the lines of a movetext and tells their events. -/
def hearLinesWithin (calls : Nat) (l : Listener σ) (s : Cursor) (h : Hearing σ) :
    List Line → Except WordFault (Hearing σ × MovetextEnd × List Line)
  | [] => match s.comment with
    | none => .ok (h, .complete, [])
    | some body =>
      .ok (if s.depth = 0 then h.tell l (.partialComment body.reverse) else h,
        .unterminatedComment, [])
  | line :: lines =>
    if s.comment.isNone && opensTag line then .ok (h, .complete, line :: lines)
    else if s.comment.isNone && isEscapeLine line then hearLinesWithin calls l s h lines
    else match hearLineWithin calls l s [] h line with
      | .error fault => .error fault
      | .ok (h, .endOfLine s) => hearLinesWithin calls l s h lines
      | .ok (h, .nextGame rest) => .ok (h, .complete, rest :: lines)

/-- Reads the next game and tells its events, if no more than `calls` calls may be nested for a
word; none if there is no game left. -/
def hearGameWithin (calls : Nat) (l : Listener σ) (s : σ) (lines : List Line) :
    Except WordFault (Option (Heard σ)) :=
  match lines.dropWhile isBetweenGames with
  | [] => .ok none
  | line :: lines =>
    let (h, fault, body) := hearTags l ((Hearing.start s).tell l .beginTags) none (line :: lines)
    (hearLinesWithin calls l .start (h.tell l .beginMovetext) body).map fun r =>
      some (endHearing l fault r)

/-! ## The reading tells the tokens -/

theorem tellTokens_passWord (calls : Nat) (l : Listener σ) (h : Hearing σ) (s : Cursor)
    (word : Text) :
    (∃ fault, s.dispatchWord calls word = .error fault ∧
        tellTokens calls l h (s.passWord word).1 = .error fault) ∨
      ∃ events, s.dispatchWord calls word = .ok (events, (s.passWord word).2) ∧
        tellTokens calls l h (s.passWord word).1 = .ok (h.tellAll l events) := by
  by_cases hcounts : (s.readsWords && !word.isEmpty) = true
  · have hfinished : s.finished = false := by
      simp only [Cursor.readsWords, Bool.and_eq_true, Bool.not_eq_true'] at hcounts
      exact hcounts.1.2
    rw [Cursor.dispatchWord, Cursor.passWord, if_pos hcounts, if_pos hcounts, tellTokens,
      Token.reportWithin]
    cases outcomeMarker? word with
    | some marker => exact Or.inr ⟨[.outcome marker], rfl, rfl⟩
    | none =>
      cases dispatch calls word with
      | error fault => exact Or.inl ⟨fault, rfl, rfl⟩
      | ok events =>
        refine Or.inr ⟨events, ?_, rfl⟩
        rw [Option.isSome_none, ← hfinished]
        rfl
  · rw [Cursor.dispatchWord, Cursor.passWord, if_neg hcounts, if_neg hcounts]
    exact Or.inr ⟨[], rfl, rfl⟩

theorem tellTokens_passBreak (l : Listener σ) (h : Hearing σ) (s : Cursor) (c : Char) :
    tellTokens calls l h (s.passBreak c) = .ok (h.tellAll l (s.readBreak c).1) := by
  unfold Cursor.passBreak Cursor.readBreak
  by_cases hbrace : c = '\x7b'
  · simp [hbrace]
  · by_cases hopen : c = '('
    · cases s.readsWords <;> simp [hopen, tellTokens, Token.reportWithin, Token.report,
        Except.mapError]
    · by_cases hclose : c = ')' <;> simp [hbrace, hopen, hclose]

/-- **Hearing a line** is being told its tokens. -/
theorem hearLineWithin_eq (l : Listener σ) (line : Line) (s : Cursor) (word : Text)
    (h : Hearing σ) :
    hearLineWithin calls l s word h line
      = (tellTokens calls l h (lineTokens s word line).tokens).map fun h =>
        (h, (lineTokens s word line).stop) := by
  induction line generalizing s word h with
  | nil =>
    rw [hearLineWithin, lineTokens]
    rcases tellTokens_passWord calls l h s word.reverse with
      ⟨fault, hword, htokens⟩ | ⟨events, hword, htokens⟩ <;>
      simp only [hword, htokens, Except.map]
  | cons c cs ih =>
    rw [hearLineWithin, lineTokens]
    cases s.comment with
    | some body =>
      by_cases hc : c = '}'
      · simp only [hc, if_true, ih, LineTokens.after, tellTokens_append]
        split <;> rfl
      · simp only [hc, if_false, ih]
    | none =>
      simp only []
      by_cases hnext : (s.finished && s.depth == 0 && word.isEmpty && c == '[') = true
      · rw [if_pos hnext, if_pos hnext]
        rfl
      · rw [if_neg hnext, if_neg hnext]
        by_cases hbreak : isWordBreak c = true
        · rw [if_pos hbreak, if_pos hbreak]
          rcases tellTokens_passWord calls l h s word.reverse with
            ⟨fault, hword, htokens⟩ | ⟨events, hword, htokens⟩
          · simp only [hword]
            by_cases hsemi : c = ';'
            · simp only [hsemi, if_true, htokens, Except.map]
            · simp only [hsemi, if_false, LineTokens.after, tellTokens_append, htokens, Except.bind,
                Except.map]
          · simp only [hword]
            by_cases hsemi : c = ';'
            · simp only [hsemi, if_true, htokens, Except.map]
            · simp only [hsemi, if_false, ih, LineTokens.after, tellTokens_append, htokens,
                tellTokens_passBreak, Except.bind, Hearing.tellAll_append]
        · rw [if_neg hbreak, if_neg hbreak, ih]

/-- **Hearing a movetext** is being told its tokens. -/
theorem hearLinesWithin_eq (l : Listener σ) (lines : List Line) (s : Cursor) (h : Hearing σ) :
    hearLinesWithin calls l s h lines
      = (tellTokens calls l h (movetextTokens s lines).tokens).map fun h =>
        (h, (movetextTokens s lines).ending, (movetextTokens s lines).rest) := by
  induction lines generalizing s h with
  | nil =>
    rw [hearLinesWithin, movetextTokens]
    cases s.comment with
    | none => rfl
    | some body =>
      simp only []
      split <;> rfl
  | cons line lines ih =>
    rw [hearLinesWithin, movetextTokens, hearLineWithin_eq]
    by_cases hopen : (s.comment.isNone && opensTag line) = true
    · rw [if_pos hopen, if_pos hopen]
      rfl
    · rw [if_neg hopen, if_neg hopen]
      by_cases hescape : (s.comment.isNone && isEscapeLine line) = true
      · rw [if_pos hescape, if_pos hescape, ih]
      · rw [if_neg hescape, if_neg hescape]
        rcases lineTokens s [] line with ⟨tokens, s' | rest⟩
        · simp only [MovetextTokens.after, tellTokens_append]
          cases tellTokens calls l h tokens with
          | error fault => rfl
          | ok h' => exact ih s' h'
        · cases tellTokens calls l h tokens <;> simp only [Except.map]

/-! ## Games -/

/-- The first fault among the tokens of the game at the front of the lines. -/
def firstFault? (calls : Nat) (lines : List Line) : Option WordFault :=
  (gameTokens lines).tokens.findSome? (Token.fault? calls)

/-- Some token of the game cannot be reported. -/
def HasFaultyToken (calls : Nat) (lines : List Line) : Prop :=
  ∃ token ∈ (gameTokens lines).tokens, token.IsFaulty calls

theorem isSome_firstFault?_iff (lines : List Line) :
    (firstFault? calls lines).isSome = true ↔ HasFaultyToken calls lines := by
  rw [firstFault?, List.findSome?_isSome_iff]
  simp only [Token.isSome_fault?_iff]
  rfl

theorem firstFault?_eq_none_iff {lines : List Line} :
    firstFault? calls lines = none ↔ ¬HasFaultyToken calls lines := by
  rw [← isSome_firstFault?_iff, Bool.not_eq_true, Option.isSome_eq_false_iff,
    Option.isNone_iff_eq_none]

theorem not_hasOversizedToken {lines : List Line} (h : ¬HasFaultyToken calls lines) :
    ¬HasOversizedToken lines :=
  fun ⟨token, hmem, hover⟩ => h ⟨token, hmem, Or.inl hover⟩

/-- With more calls than each word has digits, only oversized annotations have a fault. -/
theorem hasFaultyToken_iff_of_countP_lt {lines : List Line}
    (h : ∀ w, .word w ∈ (gameTokens lines).tokens → w.countP isDecimalDigit < calls) :
    HasFaultyToken calls lines ↔ HasOversizedToken lines := by
  refine exists_congr fun token => and_congr_right fun hmem => or_iff_left ?_
  cases token with
  | word w =>
    intro hdeep
    have hle := droppedNumbers_le_countP w
    have hlt := h w hmem
    have hcalls := hdeep.2
    omega
  | _ => exact id

/-- Lines that belong to no game do not count. -/
theorem gameTokens_dropWhile (lines : List Line) :
    gameTokens (lines.dropWhile isBetweenGames) = gameTokens lines := by
  rw [gameTokens, gameTokens, readTags_dropWhile]

/-- **The reading with a bound** ends at the first token with a fault. If there is none, it is the
reading without a bound. -/
theorem hearGameWithin_eq (l : Listener σ) (s : σ) (lines : List Line) :
    hearGameWithin calls l s lines = match firstFault? calls lines with
      | some fault => .error fault
      | none => .ok (hearGame l s lines) := by
  cases hd : lines.dropWhile isBetweenGames with
  | nil =>
    have hfault : firstFault? calls lines = none := by
      rw [firstFault?, ← gameTokens_dropWhile, hd]
      rfl
    rw [hearGameWithin, hearGame, hd, hfault]
  | cons line later =>
    have hgame : gameTokens (line :: later) = gameTokens lines := by rw [← hd, gameTokens_dropWhile]
    have htold : movetextTokens .start (readTags (line :: later)).body = gameTokens lines := hgame
    rw [hearGameWithin, hearGame, hd, firstFault?]
    simp only [hearTags_eq, hearLinesWithin_eq, tellTokens_eq, htold]
    cases hfault : (gameTokens lines).tokens.findSome? (Token.fault? calls) with
    | some fault => rfl
    | none =>
      have hover : ¬HasOversizedToken (line :: later) := by
        rw [HasOversizedToken, hgame]
        exact not_hasOversizedToken (firstFault?_eq_none_iff.1 hfault)
      simp only [hearLines_eq, scanLines_of_not_hasOversizedToken hover, hgame, Except.map]

/-! ## Texts of one word -/

/-- A word that stands at the front of a line is cut off whole. -/
theorem lineTokens_append {s : Cursor} (hs : s.comment = none) (hfinished : s.finished = false)
    (rest : Line) {w : Text} (hw : ∀ c ∈ w, isWordBreak c = false) :
    ∀ word : Text, lineTokens s word (w ++ rest) = lineTokens s (w.reverse ++ word) rest := by
  induction w with
  | nil => exact fun _ => rfl
  | cons c w ih =>
    intro word
    obtain ⟨hc, hw⟩ := List.forall_mem_cons.1 hw
    rw [List.cons_append, lineTokens, hs]
    simp only [hfinished, Bool.false_and, Bool.false_eq_true, if_false, hc]
    rw [ih hw, List.reverse_cons, List.append_assoc, List.singleton_append]

/-- The first word of a text is a token of its game. -/
theorem mem_gameTokens {c : Char} {w rest : Text} (hw : ∀ d ∈ c :: w, isWordBreak d = false)
    (htag : c ≠ '[') (hescape : c ≠ '%') (hrest : rest = [] ∨ ∃ more, rest = ' ' :: more)
    (hline : '\n' ∉ c :: w ++ rest) :
    .word (c :: w) ∈ (gameTokens (lines (c :: w ++ rest))).tokens := by
  have hblank : isBlank c = false := by
    have hbreak := hw c List.mem_cons_self
    simp only [isWordBreak, Bool.or_eq_false_iff] at hbreak
    exact hbreak.1.1.1.1.1
  have hopens : opensTag (c :: w ++ rest) = false := by
    rw [opensTag, List.cons_append, trimLeft_cons_of_not_isBlank hblank]
    simpa using htag
  have hpassed : isEscapeLine (c :: w ++ rest) = false := by simpa [isEscapeLine] using hescape
  have hbody : readTags (lines (c :: w ++ rest)) = ⟨[], none, [c :: w ++ rest]⟩ := by
    have hnot : isBlankText (c :: w ++ rest) = false := by simp [isBlankText, hblank]
    rw [lines_of_not_mem (by simp) hline, readTags, hopens, hpassed, hnot]
    rfl
  have hstart : Cursor.start.passWord (c :: w)
      = ([.word (c :: w)], { Cursor.start with finished := (outcomeMarker? (c :: w)).isSome }) :=
    Cursor.passWord_of_readsWords rfl (List.cons_ne_nil c w)
  have hmem : .word (c :: w) ∈ (lineTokens .start [] (c :: w ++ rest)).tokens := by
    rw [lineTokens_append rfl rfl rest hw, List.append_nil]
    rcases hrest with rfl | ⟨more, rfl⟩
    · rw [lineTokens, List.reverse_reverse, hstart]
      exact List.mem_singleton_self _
    · rw [lineTokens, List.reverse_reverse, hstart]
      simp [Cursor.start, LineTokens.after, show isWordBreak ' ' = true by decide]
  rw [gameTokens, hbody, movetextTokens, hopens, hpassed]
  simp only [Bool.and_false, Bool.false_eq_true, if_false]
  rcases hcut : lineTokens .start [] (c :: w ++ rest) with ⟨tokens, s | next⟩
  · rw [hcut] at hmem
    exact List.mem_append_left _ hmem
  · rw [hcut] at hmem
    exact hmem

/-- A move with numbers glued to its front. -/
def gluedMove : Nat → Text
  | 0 => "e4".toList
  | n + 1 => '1' :: '.' :: gluedMove n

theorem forall_mem_gluedMove {p : Char → Prop} [DecidablePred p]
    (hp : ("e41.".toList.all fun c => p c) = true) (n : Nat) : ∀ c ∈ gluedMove n, p c := by
  have hall := List.all_iff_forall_prop.1 hp
  induction n with
  | zero => exact fun c hc => hall c (List.mem_append_left _ hc)
  | succ n ih =>
    intro c hc
    rcases List.mem_cons.1 hc with rfl | hc
    · exact hall '1' (by decide)
    · rcases List.mem_cons.1 hc with rfl | hc
      · exact hall '.' (by decide)
      · exact ih c hc

/-- Each number in front of a move takes a call. -/
theorem droppedNumbers_gluedMove (n : Nat) : droppedNumbers (gluedMove n) = n := by
  induction n with
  | zero => exact droppedNumbers_of_not_isDecimalDigit (by decide) _
  | succ n ih =>
    have hglyph : ∀ c ∈ gluedMove (n + 1), isGlyphChar c = false :=
      forall_mem_gluedMove (by decide) (n + 1)
    have hbody : splitGlyph (gluedMove (n + 1)) = (gluedMove (n + 1), []) := by
      have hsplit := splitGlyph_append (g := []) hglyph (by simp)
      rwa [List.append_nil] at hsplit
    have hmove : moveEvents? (gluedMove (n + 1)) = none := by
      refine moveEvents?_of_dot ?_
      rw [hbody]
      simp [gluedMove]
    have hhead : (gluedMove n).head? ≠ some '.' := by cases n <;> simp [gluedMove]
    have hdrop : dropMoveNumber (['1'] ++ ['.'] ++ gluedMove n) = gluedMove n :=
      dropMoveNumber_append (List.forall_mem_singleton.2 (by decide))
        (List.forall_mem_singleton.2 rfl) (by simp) hhead
    have hbehind : gluedMove n ≠ [] := by cases n <;> simp [gluedMove]
    simp only [List.cons_append, List.nil_append] at hdrop
    rw [gluedMove] at hmove ⊢
    rw [droppedNumbers, hdrop, if_pos ⟨by decide, hmove, hbehind⟩, ih]

/-- A move with as many numbers in front as calls may be nested cannot be reported. -/
theorem hasFaultyToken_gluedMove (calls : Nat) :
    HasFaultyToken calls (lines (gluedMove calls)) := by
  have hquiet : ∀ d ∈ gluedMove calls, isWordBreak d = false ∧ d ≠ '\n' ∧ d ≠ '[' ∧ d ≠ '%' :=
    forall_mem_gluedMove (by decide) calls
  have hmarker : outcomeMarker? (gluedMove calls) = none :=
    outcomeMarker?_eq_none_of_digits
      (fun h => absurd rfl (forall_mem_gluedMove (p := (· ≠ '-')) (by decide) calls _ h))
      (fun h => absurd rfl (forall_mem_gluedMove (p := (· ≠ '*')) (by decide) calls _ h))
  obtain ⟨c, w, hcons⟩ : ∃ c w, gluedMove calls = c :: w := by
    cases calls <;> exact ⟨_, _, rfl⟩
  have hmem : Token.word (gluedMove calls) ∈ (gameTokens (lines (gluedMove calls))).tokens := by
    rw [hcons] at hquiet ⊢
    have hfirst := hquiet c List.mem_cons_self
    have htoken : Token.word (c :: w) ∈ (gameTokens (lines (c :: w ++ []))).tokens :=
      mem_gameTokens (fun d hd => (hquiet d hd).1) hfirst.2.2.1 hfirst.2.2.2 (Or.inl rfl)
        fun h => (hquiet '\n' (by simpa using h)).2.1 rfl
    rwa [List.append_nil] at htoken
  exact ⟨_, hmem, Or.inr ⟨hmarker, Nat.le_of_eq (droppedNumbers_gluedMove calls).symm⟩⟩

end Scoresheet.Pgn
