import Scoresheet.Proofs.Pgn.Boundary
import Scoresheet.Proofs.Pgn.Words

/-!
# Tokens of a movetext

A movetext is cut into tokens without any look at what a word means, except that a marker of the
result ends the words. Scanning the movetext reports the tokens one after another
(`scanLines_eq`): a word that means nothing reports nothing and the words behind it are reported all
the same. Only a numeric annotation of too many digits, with or without move numbers glued to its
front (`wordEvents_error_iff`), ends the scan.
-/

namespace Scoresheet.Pgn

open Text Scoresheet.Chess

/-! ## Words that are oversized -/

/-- Dropping characters from the front stops at the first that does not count, wherever it is. -/
theorem dropWhile_append_cons {α : Type} {p : α → Bool} {a : α} (ha : p a = false)
    (xs ys : List α) : (xs ++ a :: ys).dropWhile p = xs.dropWhile p ++ a :: ys := by
  rw [List.dropWhile_append]
  split
  · rename_i hempty
    rw [List.isEmpty_iff.1 hempty, List.dropWhile_cons_of_neg (by simp [ha])]
    rfl
  · rfl

/-- A numeric annotation of too many digits, perhaps behind move numbers. -/
def IsOversizedWord (w : Text) : Prop :=
  ∃ number numeral, w = number ++ '$' :: numeral ∧
    (∀ c ∈ number, isDecimalDigit c = true ∨ c = '.') ∧ number.head? ≠ some '.' ∧
    isNumeral numeral = true ∧ maxDigits < numeral.length

/-- A dollar sign stands in no move. -/
theorem moveEvents?_of_dollar {w : Text} (h : '$' ∈ w) : moveEvents? w = none := by
  have hbody : '$' ∈ (splitGlyph w).1 := by
    obtain ⟨before, after, hw⟩ := List.append_of_mem (List.mem_reverse.2 h)
    rw [splitGlyph, List.mem_reverse, hw, dropWhile_append_cons (by decide)]
    simp
  refine moveEvents?_of_canonical?_eq_none ?_
  cases hs : San.canonical? (splitGlyph w).1 with
  | none => rfl
  | some s =>
    rcases San.mem_alphabet_of_canonical? hs hbody with hc | hc
    · exact absurd hc (by decide)
    · exact absurd hc (by decide)

theorem dropMoveNumber_append_dollar (number numeral : Text) :
    dropMoveNumber (number ++ '$' :: numeral) = dropMoveNumber number ++ '$' :: numeral := by
  rw [dropMoveNumber, dropWhile_append_cons (by decide), dropWhile_append_cons (by decide)]
  rfl

theorem head?_dropMoveNumber (w : Text) : (dropMoveNumber w).head? ≠ some '.' := by
  intro h
  have hnot := List.head?_dropWhile_not (· == '.') (w.dropWhile isDecimalDigit)
  rw [dropMoveNumber] at h
  rw [h] at hnot
  simp at hnot

/-- What is dropped in front of a word are digits and dots. -/
theorem exists_append_dropMoveNumber (w : Text) :
    ∃ number, w = number ++ dropMoveNumber w ∧
      ∀ c ∈ number, isDecimalDigit c = true ∨ c = '.' := by
  refine ⟨w.takeWhile isDecimalDigit ++ (w.dropWhile isDecimalDigit).takeWhile (· == '.'), ?_, ?_⟩
  · rw [dropMoveNumber, List.append_assoc, List.takeWhile_append_dropWhile,
      List.takeWhile_append_dropWhile]
  · intro c hc
    rcases List.mem_append.1 hc with hc | hc
    · exact Or.inl (List.mem_takeWhile_imp hc)
    · exact Or.inr (by simpa using List.mem_takeWhile_imp hc)

theorem isOversizedWord_of_wordEvents {w : Text} {n : OversizedNumeral}
    (h : wordEvents w = .error n) : IsOversizedWord w := by
  fun_induction wordEvents w with
  | case1 => simp at h
  | case2 cs hnum =>
    refine ⟨[], cs, rfl, by simp, by simp, hnum, ?_⟩
    unfold readNumeral at h
    split at h
    · simp [Except.map] at h
    · omega
  | case3 cs hnum => simp at h
  | case4 c cs hc code hg => simp at h
  | case5 c cs hc hg events hm => simp at h
  | case6 c cs hc hg hm hd ih =>
    -- behind the number that is dropped stands an oversized annotation
    obtain ⟨number, numeral, hw, hnumber, _, hnumeral⟩ := ih h
    obtain ⟨front, hfront, hchars⟩ := exists_append_dropMoveNumber (c :: cs)
    rw [hw, ← List.append_assoc] at hfront
    refine ⟨front ++ number, numeral, hfront, ?_, ?_, hnumeral⟩
    · intro d hmem
      rcases List.mem_append.1 hmem with hmem | hmem
      · exact hchars d hmem
      · exact hnumber d hmem
    · intro hhead
      have hfirst : (c :: cs).head? = some '.' := by
        rw [hfront, List.head?_append, hhead]
        rfl
      obtain rfl : c = '.' := by simpa using hfirst
      exact absurd hd (by decide)
  | case7 c cs hc hg hm hd => simp at h

/-- Move numbers are dropped one after another until the annotation is met. -/
theorem IsOversizedWord.exists_wordEvents {w : Text} (h : IsOversizedWord w) :
    ∃ n, wordEvents w = .error n := by
  obtain ⟨number, numeral, rfl, hnumber, hhead, hnumeral, hlength⟩ := h
  induction hn : number.length using Nat.strongRecOn generalizing number with
  | ind n ih =>
    cases number with
    | nil =>
      rw [List.nil_append, wordEvents, if_pos rfl, if_pos hnumeral, readNumeral,
        if_neg (by omega)]
      exact ⟨_, rfl⟩
    | cons c number =>
      have hc : isDecimalDigit c = true :=
        (hnumber c List.mem_cons_self).resolve_right fun hdot => hhead (by rw [hdot]; rfl)
      have hmove : moveEvents? (c :: (number ++ '$' :: numeral)) = none :=
        moveEvents?_of_dollar (by simp)
      have hdrop := dropMoveNumber_append_dollar (c :: number) numeral
      rw [List.cons_append] at hdrop ⊢
      rw [wordEvents_of_isDecimalDigit hc hmove, hdrop]
      refine ih _ ?_ _ (fun d hd => hnumber d (dropMoveNumber_subset _ hd))
        (head?_dropMoveNumber _) rfl
      rw [← hn]
      exact length_dropMoveNumber_lt hc number

/-- **A word stops the scan** exactly if it is an oversized annotation. -/
theorem wordEvents_error_iff (w : Text) : (∃ n, wordEvents w = .error n) ↔ IsOversizedWord w :=
  ⟨fun ⟨_, h⟩ => isOversizedWord_of_wordEvents h, fun h => h.exists_wordEvents⟩

/-! ## Tokens -/

/-- What stands in a movetext outside variations. -/
inductive Token
  /-- A word of the main line before the result, or the result. -/
  | word (w : Text)
  | comment (text : Text)
  | partialComment (text : Text)
  /-- The start of a variation. -/
  | variation
  deriving DecidableEq, Repr

/-- What a token reports. -/
def Token.report : Token → Except OversizedNumeral (List Event)
  | word w => match outcomeMarker? w with
    | some marker => .ok [.outcome marker]
    | none => wordEvents w
  | comment text => .ok [.comment text]
  | partialComment text => .ok [.partialComment text]
  | variation => .ok [.beginVariation]

/-- What tokens report one after another, up to the first that cannot be converted. -/
def reportAll : List Token → List Event × Option OversizedNumeral
  | [] => ([], none)
  | token :: tokens => match token.report with
    | .error n => ([], some n)
    | .ok events => (events ++ (reportAll tokens).1, (reportAll tokens).2)

namespace Cursor

/-- The token of a word, and the cursor after it. -/
def passWord (s : Cursor) (word : Text) : List Token × Cursor :=
  if s.readsWords && !word.isEmpty then
    ([.word word], { s with finished := (outcomeMarker? word).isSome })
  else ([], s)

/-- The token of a character that ends a word. -/
def passBreak (s : Cursor) (c : Char) : List Token :=
  if c = '(' && s.readsWords then [.variation] else []

end Cursor

/-- Where the tokens of a line end. -/
inductive LineEnd
  | endOfLine (cursor : Cursor)
  /-- The rest of the line belongs to the next game. -/
  | nextGame (rest : Line)

def LineEnd.stop : LineEnd → LineStop
  | endOfLine s => .endOfLine s
  | nextGame rest => .nextGame rest

/-- The tokens of a line and where they end. -/
structure LineTokens where
  tokens : List Token
  stop : LineEnd

/-- Line tokens with others put in front. -/
def LineTokens.after (tokens : List Token) (l : LineTokens) : LineTokens :=
  { l with tokens := tokens ++ l.tokens }

/-- Cuts a line into tokens from a cursor, given the word in progress with its last character
first. -/
def lineTokens (s : Cursor) (word : Text) : Line → LineTokens
  | [] => ⟨(s.passWord word.reverse).1, .endOfLine (s.passWord word.reverse).2⟩
  | c :: cs => match s.comment with
    | some body =>
      if c = '}' then
        (lineTokens { s with comment := none } [] cs).after
          (if s.depth = 0 then [.comment body.reverse] else [])
      else lineTokens { s with comment := some (c :: body) } [] cs
    | none =>
      if s.finished && s.depth == 0 && word.isEmpty && c == '[' then ⟨[], .nextGame (c :: cs)⟩
      else if isWordBreak c then
        let (tokens, s) := s.passWord word.reverse
        if c = ';' then ⟨tokens, .endOfLine s⟩
        else (lineTokens (s.readBreak c).2 [] cs).after (tokens ++ s.passBreak c)
      else lineTokens s (c :: word) cs

/-- The tokens of a movetext and how it ends. -/
structure MovetextTokens where
  tokens : List Token
  ending : MovetextEnd
  rest : List Line

/-- The tokens of a movetext with others put in front. -/
def MovetextTokens.after (tokens : List Token) (m : MovetextTokens) : MovetextTokens :=
  { m with tokens := tokens ++ m.tokens }

/-- Cuts the lines of a movetext into tokens from a cursor. -/
def movetextTokens (s : Cursor) : List Line → MovetextTokens
  | [] => match s.comment with
    | none => ⟨[], .complete, []⟩
    | some body =>
      ⟨if s.depth = 0 then [.partialComment body.reverse] else [], .unterminatedComment, []⟩
  | line :: lines =>
    if s.comment.isNone && opensTag line then ⟨[], .complete, line :: lines⟩
    else if s.comment.isNone && isEscapeLine line then movetextTokens s lines
    else match lineTokens s [] line with
      | ⟨tokens, .endOfLine s⟩ => (movetextTokens s lines).after tokens
      | ⟨tokens, .nextGame rest⟩ => ⟨tokens, .complete, rest :: lines⟩

/-! ## Reports -/

section Reports

variable {xs ys : List Token} {n : OversizedNumeral}

theorem reportAll_append_of_some (h : (reportAll xs).2 = some n) (ys : List Token) :
    reportAll (xs ++ ys) = reportAll xs := by
  induction xs with
  | nil => simp [reportAll] at h
  | cons x xs ih =>
    rw [List.cons_append, reportAll, reportAll]
    rw [reportAll] at h
    cases hx : x.report with
    | error m => rfl
    | ok events =>
      simp only [hx] at h
      simp only [ih h]

theorem reportAll_append_of_none (h : (reportAll xs).2 = none) (ys : List Token) :
    reportAll (xs ++ ys) = ((reportAll xs).1 ++ (reportAll ys).1, (reportAll ys).2) := by
  induction xs with
  | nil => rfl
  | cons x xs ih =>
    rw [List.cons_append, reportAll, reportAll]
    rw [reportAll] at h
    cases hx : x.report with
    | error m => simp [hx] at h
    | ok events =>
      simp only [hx] at h
      simp only [ih h, List.append_assoc]

end Reports

namespace Cursor

variable {s : Cursor} {word : Text} {n : OversizedNumeral}

theorem passWord_of_readsWords (hs : s.readsWords = true) (hw : word ≠ []) :
    s.passWord word
      = ([.word word], { s with finished := (outcomeMarker? word).isSome }) := by
  rw [passWord, hs]
  cases word with
  | nil => exact absurd rfl hw
  | cons c cs => rfl

/-- A word is read as its token reports, and stops the scan if that cannot be converted. -/
theorem readWord_eq (s : Cursor) (word : Text) :
    (∃ n, reportAll (s.passWord word).1 = ([], some n) ∧ s.readWord word = .error n) ∨
      ∃ events, reportAll (s.passWord word).1 = (events, none) ∧
        s.readWord word = .ok (events, (s.passWord word).2) := by
  by_cases hw : word = []
  · subst hw
    refine Or.inr ⟨[], ?_, ?_⟩ <;> simp [passWord, reportAll]
  · cases hs : s.readsWords with
    | false =>
      exact Or.inr ⟨[], by simp [passWord, hs, reportAll], by simp [readWord, passWord, hs]⟩
    | true =>
      have hfinished : s.finished = false := by
        simp only [readsWords, Bool.and_eq_true, Bool.not_eq_true'] at hs
        exact hs.2
      rw [passWord_of_readsWords hs hw, readWord, if_pos hs, reportAll, Token.report]
      cases hm : outcomeMarker? word with
      | some marker => exact Or.inr ⟨[.outcome marker], rfl, rfl⟩
      | none =>
        cases hevents : wordEvents word with
        | error n => exact Or.inl ⟨n, rfl, rfl⟩
        | ok events =>
          refine Or.inr ⟨events, by simp [reportAll], ?_⟩
          rw [Option.isSome_none, ← hfinished]
          rfl

theorem reportAll_passBreak (s : Cursor) (c : Char) :
    reportAll (s.passBreak c) = ((s.readBreak c).1, none) := by
  unfold passBreak readBreak
  by_cases hbrace : c = '\x7b'
  · simp [hbrace, reportAll]
  · by_cases hopen : c = '('
    · cases s.readsWords <;> simp [hopen, reportAll, Token.report]
    · by_cases hclose : c = ')' <;> simp [hbrace, hopen, hclose, reportAll]

end Cursor

/-! ## The scan reports the tokens -/

namespace LineTokens

variable {l : LineTokens} {xs : List Token} {events : List Event} {n : OversizedNumeral}

/-- What a line reports with these tokens, and why its scan ends. -/
def scan (l : LineTokens) : LineScan :=
  ⟨(reportAll l.tokens).1, match (reportAll l.tokens).2 with
    | some n => .oversizedNag n
    | none => l.stop.stop⟩

theorem scan_after_of_some (h : reportAll xs = (events, some n)) :
    (l.after xs).scan = ⟨events, .oversizedNag n⟩ := by
  have happend := reportAll_append_of_some (n := n) (by rw [h]) l.tokens
  rw [scan, after]
  simp only [happend, h]

theorem scan_after_of_none (h : reportAll xs = (events, none)) :
    (l.after xs).scan = l.scan.after events := by
  have happend := reportAll_append_of_none (by rw [h]) l.tokens
  rw [scan, scan, after, LineScan.after]
  simp only [happend, h]

end LineTokens

/-- **Scanning a line reports its tokens.** -/
theorem scanLine_eq (line : Line) : ∀ (s : Cursor) (word : Text),
    scanLine s word line = (lineTokens s word line).scan := by
  induction line with
  | nil =>
    intro s word
    rw [scanLine, lineTokens, LineTokens.scan]
    rcases s.readWord_eq word.reverse with ⟨n, hreport, hread⟩ | ⟨events, hreport, hread⟩ <;>
      simp only [hreport, hread, LineEnd.stop]
  | cons c cs ih =>
    intro s word
    rw [scanLine, lineTokens]
    cases hcomment : s.comment with
    | some body =>
      simp only []
      split
      · rw [ih]
        have hreport : reportAll (if s.depth = 0 then [Token.comment body.reverse] else [])
            = (if s.depth = 0 then [Event.comment body.reverse] else [], none) := by
          split <;> rfl
        exact (LineTokens.scan_after_of_none hreport).symm
      · exact ih _ _
    | none =>
      simp only []
      split
      · rfl
      · split
        · rcases s.readWord_eq word.reverse with ⟨n, hreport, hread⟩ | ⟨events, hreport, hread⟩
          · simp only [hread]
            split
            · simp only [LineTokens.scan, hreport]
            · rw [LineTokens.scan_after_of_some]
              rw [reportAll_append_of_some (by rw [hreport]), hreport]
          · simp only [hread]
            split
            · simp only [LineTokens.scan, hreport, LineEnd.stop]
            · rw [ih, LineTokens.scan_after_of_none]
              rw [reportAll_append_of_none (by rw [hreport]), hreport, Cursor.reportAll_passBreak]
        · exact ih _ _

/-- What is reported of a movetext with these tokens, and how it ends. -/
def MovetextTokens.IsReportedBy (tokens : MovetextTokens) (m : Movetext) : Prop :=
  m.events = (reportAll tokens.tokens).1 ∧
    match (reportAll tokens.tokens).2 with
    | some n => m.ending = .oversizedNag n
    | none => m.ending = tokens.ending ∧ m.rest = tokens.rest

namespace MovetextTokens.IsReportedBy

variable {tokens : MovetextTokens} {m : Movetext} {xs : List Token} {events : List Event}
  {n : OversizedNumeral}

theorem after (h : tokens.IsReportedBy m) (hxs : reportAll xs = (events, none)) :
    (tokens.after xs).IsReportedBy (m.after events) := by
  have happend := reportAll_append_of_none (by rw [hxs]) tokens.tokens
  unfold IsReportedBy MovetextTokens.after Movetext.after at *
  simp only [happend, hxs]
  exact ⟨by rw [h.1], h.2⟩

theorem of_some (hxs : reportAll xs = (events, some n)) (tokens : MovetextTokens)
    (rest : List Line) : (tokens.after xs).IsReportedBy ⟨events, .oversizedNag n, rest⟩ := by
  have happend := reportAll_append_of_some (n := n) (by rw [hxs]) tokens.tokens
  unfold IsReportedBy MovetextTokens.after
  simp only [happend, hxs, and_self]

end MovetextTokens.IsReportedBy

/-- **Scanning a movetext reports its tokens.** -/
theorem scanLines_eq (lines : List Line) : ∀ s : Cursor,
    (movetextTokens s lines).IsReportedBy (scanLines s lines) := by
  induction lines with
  | nil =>
    intro s
    rw [scanLines, movetextTokens]
    cases s.comment with
    | none => exact ⟨rfl, rfl, rfl⟩
    | some body =>
      by_cases hdepth : s.depth = 0
      · simp [hdepth, MovetextTokens.IsReportedBy, reportAll, Token.report]
      · simp [hdepth, MovetextTokens.IsReportedBy, reportAll]
  | cons line lines ih =>
    intro s
    rw [scanLines, movetextTokens]
    split
    · exact ⟨rfl, rfl, rfl⟩
    · split
      · exact ih s
      · rw [scanLine_eq]
        rcases hline : lineTokens s [] line with ⟨xs, stop⟩
        rcases hreport : reportAll xs with ⟨events, _ | n⟩
        · cases stop with
          | endOfLine s' =>
            simp only [LineTokens.scan, hreport, LineEnd.stop]
            exact (ih s').after hreport
          | nextGame rest =>
            simp only [LineTokens.scan, hreport, LineEnd.stop]
            simp only [MovetextTokens.IsReportedBy, hreport, and_self]
        · cases stop with
          | endOfLine s' =>
            simp only [LineTokens.scan, hreport]
            exact MovetextTokens.IsReportedBy.of_some hreport _ _
          | nextGame rest =>
            simp only [LineTokens.scan, hreport]
            simp only [MovetextTokens.IsReportedBy, hreport, and_self]

end Scoresheet.Pgn
