import Scoresheet.Pgn.Game
import Scoresheet.Proofs.Text.Lines

/-!
# Scanning a text character by character

A movetext is scanned line by line, and what a line means depends on its first characters. Here the
scan is followed over a text as a whole: `scanText` scans a text that starts inside a line, and each
lemma says what one character, word, comment or gap of white space does, whatever comes after it.

* `scanText_append` — the characters of a word are collected;
* `scanText_gap` — white space ends a word and otherwise does nothing;
* `scanText_comment` — a comment reaches to its closing brace, over any number of lines;
* `scanText_words` — a text without comments and the like is the sequence of its words.
-/

namespace Scoresheet.Pgn

open Text

/-! ## From lines to texts -/

namespace LineScan

/-- Goes on to the lines after the one that was scanned. -/
def resume (scan : LineScan) (lines : List Line) : Movetext :=
  match scan with
  | ⟨events, .endOfLine s⟩ => (scanLines s lines).after events
  | ⟨events, .nextGame rest⟩ => ⟨events, .complete, rest :: lines⟩
  | ⟨events, .oversizedNag e⟩ => ⟨events, .oversizedNag e, lines⟩

theorem resume_after (events : List Event) (scan : LineScan) (lines : List Line) :
    (scan.after events).resume lines = (scan.resume lines).after events := by
  obtain ⟨es, stop⟩ := scan
  cases stop <;> simp [resume, after, Movetext.after]

end LineScan

@[simp] theorem Movetext.after_nil (m : Movetext) : m.after [] = m := rfl

theorem Movetext.after_after (es es' : List Event) (m : Movetext) :
    (m.after es).after es' = m.after (es' ++ es) := by
  simp [Movetext.after]

/-- Scans a text that starts inside a line, given the word in progress with its last character
first. -/
def scanText (s : Cursor) (word t : Text) : Movetext :=
  (scanLine s word (firstLine t)).resume (laterLines t)

/-- A line that is neither passed over nor given back is scanned. -/
theorem scanLines_cons {s : Cursor} {line : Line} (lines : List Line)
    (h : s.comment.isSome = true ∨ opensTag line = false ∧ isEscapeLine line = false) :
    scanLines s (line :: lines) = (scanLine s [] line).resume lines := by
  have h1 : (s.comment.isNone && opensTag line) = false := by
    rcases h with h | h
    · cases hs : s.comment <;> simp_all
    · simp [h.1]
  have h2 : (s.comment.isNone && isEscapeLine line) = false := by
    rcases h with h | h
    · cases hs : s.comment <;> simp_all
    · simp [h.2]
  rw [scanLines, if_neg (by simp [h1]), if_neg (by simp [h2])]
  rfl

/-! ## Words -/

namespace Cursor

@[simp] theorem readWord_nil (s : Cursor) : s.readWord [] = .ok ([], s) := by
  unfold readWord
  split
  · simp [outcomeMarker?, wordEvents, Except.map]
  · rfl

/-- What a word can do: mark the result, add events to the main line, or nothing. -/
theorem readWord_cases {s s' : Cursor} {word : Text} {events : List Event}
    (h : s.readWord word = .ok (events, s')) :
    (s.readsWords = true ∧ ∃ marker, outcomeMarker? word = some marker ∧
      events = [.outcome marker] ∧ s' = { s with finished := true }) ∨
    (s.readsWords = true ∧ wordEvents word = .ok events ∧ s' = s) ∨
    (s.readsWords = false ∧ events = [] ∧ s' = s) := by
  unfold readWord at h
  split at h
  · rename_i hreads
    split at h
    · rename_i marker hmarker
      simp only [Except.ok.injEq, Prod.mk.injEq] at h
      exact Or.inl ⟨hreads, marker, hmarker, h.1.symm, h.2.symm⟩
    · cases hw : wordEvents word with
      | error e => simp [hw, Except.map] at h
      | ok es =>
        simp only [hw, Except.map, Except.ok.injEq, Prod.mk.injEq] at h
        exact Or.inr (Or.inl ⟨hreads, by rw [h.1], h.2.symm⟩)
  · rename_i hreads
    simp only [Except.ok.injEq, Prod.mk.injEq] at h
    exact Or.inr (Or.inr ⟨by simpa using hreads, h.1.symm, h.2.symm⟩)

/-- A word does not open or close anything. -/
theorem comment_of_readWord {s s' : Cursor} {word : Text} {events : List Event}
    (h : s.readWord word = .ok (events, s')) : s'.comment = s.comment := by
  rcases readWord_cases h with ⟨_, _, _, _, rfl⟩ | ⟨_, _, rfl⟩ | ⟨_, _, rfl⟩ <;> rfl

/-- The events of words one after another, and the cursor after them. -/
def readWords (s : Cursor) : List Text → Except OversizedNumeral (List Event × Cursor)
  | [] => .ok ([], s)
  | word :: words => do
    let (events, s) ← s.readWord word
    let (more, s) ← s.readWords words
    return (events ++ more, s)

theorem readWords_cons {s s' : Cursor} {word : Text} {words : List Text} {events : List Event} :
    s.readWords (word :: words) = .ok (events, s') ↔
      ∃ es t es', s.readWord word = .ok (es, t) ∧ t.readWords words = .ok (es', s') ∧
        events = es ++ es' := by
  constructor
  · intro h
    cases hw : s.readWord word with
    | error e => simp [readWords, hw, bind, Except.bind] at h
    | ok r =>
      obtain ⟨es, t⟩ := r
      cases hm : t.readWords words with
      | error e => simp [readWords, hw, hm, bind, Except.bind] at h
      | ok r =>
        obtain ⟨es', u⟩ := r
        simp only [readWords, hw, hm, bind, Except.bind, pure, Except.pure, Except.ok.injEq,
          Prod.mk.injEq] at h
        exact ⟨es, t, es', rfl, by rw [hm, h.2], h.1.symm⟩
  · rintro ⟨es, t, es', hw, hm, rfl⟩
    simp [readWords, hw, hm, bind, Except.bind, pure, Except.pure]

/-- A word in progress is read before the words after it. -/
theorem readWords_flushWord {s s' : Cursor} {word : Text} {words : List Text}
    {events : List Event} (h : s.readWords (flushWord word ++ words) = .ok (events, s')) :
    ∃ es t es', s.readWord word.reverse = .ok (es, t) ∧ t.readWords words = .ok (es', s') ∧
      events = es ++ es' := by
  cases word with
  | nil => exact ⟨[], s, events, by simp, h, rfl⟩
  | cons c w =>
    rw [flushWord_of_ne_nil (by simp)] at h
    exact readWords_cons.1 h

end Cursor

/-! ## Characters -/

/-- The rest of a text that has come to its end. -/
theorem scanText_nil {s s' : Cursor} {word : Text} {events : List Event}
    (h : s.readWord word.reverse = .ok (events, s')) (hs : s.comment = none) :
    scanText s word [] = ⟨events, .complete, []⟩ := by
  have hs' : s'.comment = none := by rw [Cursor.comment_of_readWord h, hs]
  simp [scanText, scanLine, h, LineScan.resume, scanLines, hs', Movetext.after]

theorem isWordBreak_of_isBlank {c : Char} (h : isBlank c = true) : isWordBreak c = true := by
  simp [isWordBreak, h]

/-- A character that ends no word is collected. -/
theorem scanText_letter {s : Cursor} {word : Text} {c : Char} (t : Text) (hs : s.comment = none)
    (hc : isWordBreak c = false) (hb : word ≠ [] ∨ c ≠ '[') :
    scanText s word (c :: t) = scanText s (c :: word) t := by
  have hn : c ≠ '\n' := by
    rintro rfl
    exact absurd hc (by decide)
  -- only in front of a word does a bracket start the next game
  have hg : (s.finished && s.depth == 0 && word.isEmpty && c == '[') = false := by
    rcases hb with hb | hb
    · cases word <;> simp_all
    · simp [hb]
  rw [scanText, scanText, firstLine_cons hn, laterLines_cons hn, scanLine, hs]
  simp only [hg, hc, Bool.false_eq_true, if_false]

/-- The characters of a word are collected. -/
theorem scanText_append {s : Cursor} (hs : s.comment = none) : ∀ (w word t : Text),
    (∀ c ∈ w, isWordBreak c = false) → word ≠ [] ∨ w.head? ≠ some '[' →
    scanText s word (w ++ t) = scanText s (w.reverse ++ word) t
  | [], _, _, _, _ => rfl
  | c :: w, word, t, hw, hb => by
    rw [List.cons_append, scanText_letter (w ++ t) hs (hw c List.mem_cons_self) (by simpa using hb),
      scanText_append hs w (c :: word) t (fun d hd => hw d (List.mem_cons_of_mem _ hd))
        (Or.inl (by simp))]
    simp

/-- A character that ends a word but not the line. -/
theorem scanText_break {s s' : Cursor} {word : Text} {c : Char} {events : List Event} (t : Text)
    (hs : s.comment = none) (hc : isWordBreak c = true) (hn : c ≠ '\n') (hsemi : c ≠ ';')
    (h : s.readWord word.reverse = .ok (events, s')) :
    scanText s word (c :: t)
      = (scanText (s'.readBreak c).2 [] t).after (events ++ (s'.readBreak c).1) := by
  have hb : c ≠ '[' := by
    rintro rfl
    exact absurd hc (by decide)
  rw [scanText, firstLine_cons hn, laterLines_cons hn, scanLine, hs]
  simp only [hc, h, hsemi, beq_eq_false_iff_ne.2 hb, Bool.and_false, Bool.false_eq_true,
    if_false, if_true]
  rw [LineScan.resume_after]
  rfl

/-- The end of a line. -/
theorem scanText_newline {s s' : Cursor} {word : Text} {events : List Event} (t : Text)
    (hs : s.comment = none) (h : s.readWord word.reverse = .ok (events, s')) :
    scanText s word ('\n' :: t) = (scanLines s' (lines t)).after events := by
  have hc : isWordBreak '\n' = true := by decide
  have hr : s'.readBreak '\n' = ([], s') := rfl
  rw [scanText, firstLine_newline, laterLines_newline, scanLine, hs]
  simp only [hc, h, hr, show ('\n' == '[') = false from rfl, Bool.and_false, Bool.false_eq_true,
    if_false, if_true, show ¬ '\n' = ';' from by decide]
  rw [LineScan.resume_after]
  simp [scanLine, LineScan.resume, Movetext.after]

/-! ## Gaps -/

/-- A text that means the same at the start of a line as inside one: its first character other than
white space opens neither a tag pair nor a line that is passed over. -/
def StartsQuietly (t : Text) : Prop :=
  ∀ c, (trimLeft t).head? = some c → c ≠ '[' ∧ c ≠ '%'

theorem startsQuietly_cons {c : Char} (t : Text) (h1 : c ≠ '[') (h2 : c ≠ '%')
    (hc : isBlank c = false) : StartsQuietly (c :: t) := by
  intro d hd
  rw [trimLeft_cons_of_not_isBlank hc] at hd
  obtain rfl : c = d := by simpa using hd
  exact ⟨h1, h2⟩

theorem startsQuietly_append {g : Text} (hg : isBlankText g = true) {t : Text} :
    StartsQuietly (g ++ t) ↔ StartsQuietly t := by
  rw [StartsQuietly, trimLeft_append hg, StartsQuietly]

theorem StartsQuietly.opensTag_firstLine {t : Text} (h : StartsQuietly t) :
    opensTag (firstLine t) = false := by
  unfold opensTag
  rw [beq_eq_false_iff_ne]
  intro hc
  obtain ⟨u, hu, _⟩ := firstLine_append_rest t
  cases hl : trimLeft (firstLine t) with
  | nil => rw [hl] at hc; simp at hc
  | cons d r =>
    rw [hl] at hc
    obtain rfl : d = '[' := by simpa using hc
    -- the first line is the beginning of the text, so the bracket is seen in both
    have ht : trimLeft t = '[' :: (r ++ u) := by
      have h1 := List.takeWhile_append_dropWhile (p := isBlank) (l := firstLine t)
      rw [show (firstLine t).dropWhile isBlank = '[' :: r from hl] at h1
      rw [← hu, ← h1, List.append_assoc, trimLeft_append List.all_takeWhile]
      exact trimLeft_cons_of_not_isBlank (by decide) _
    exact (h '[' (by rw [ht]; rfl)).1 rfl

theorem StartsQuietly.isEscapeLine_firstLine {t : Text} (h : StartsQuietly t) :
    isEscapeLine (firstLine t) = false := by
  unfold isEscapeLine
  rw [beq_eq_false_iff_ne, head?_firstLine]
  intro hc
  cases t with
  | nil => simp at hc
  | cons c t =>
    obtain rfl : c = '%' := by simpa using hc
    exact (h '%' (by rw [trimLeft_cons_of_not_isBlank (by decide)]; rfl)).2 rfl

/-- At the start of a line a text that starts quietly is scanned as inside one. -/
theorem scanLines_lines {s : Cursor} {t : Text} (hs : s.comment = none) (h : StartsQuietly t) :
    scanLines s (lines t) = scanText s [] t := by
  by_cases ht : t = []
  · subst ht
    rw [scanText_nil (s.readWord_nil) hs]
    simp [scanLines, hs]
  · rw [lines_of_ne_nil ht,
      scanLines_cons _ (Or.inr ⟨h.opensTag_firstLine, h.isEscapeLine_firstLine⟩)]
    rfl

theorem Cursor.readBreak_of_isBlank {c : Char} (s : Cursor) (hc : isBlank c = true) :
    s.readBreak c = ([], s) := by
  unfold readBreak
  repeat rw [if_neg (by rintro rfl; exact absurd hc (by decide))]

/-- White space without a word before it does nothing. -/
theorem scanText_blank {s : Cursor} (hs : s.comment = none) : ∀ (g t : Text),
    isBlankText g = true → StartsQuietly t → scanText s [] (g ++ t) = scanText s [] t
  | [], _, _, _ => rfl
  | c :: g, t, hg, ht => by
    obtain ⟨hc, hg⟩ := isBlankText_cons.1 hg
    have hq : StartsQuietly (g ++ t) := (startsQuietly_append hg).2 ht
    have h0 : s.readWord ([] : Text).reverse = .ok ([], s) := s.readWord_nil
    have ih := scanText_blank hs g t hg ht
    -- behind a line feed the text stands at the start of a line
    by_cases hn : c = '\n'
    · subst hn
      rw [List.cons_append, scanText_newline _ hs h0, scanLines_lines hs hq, ih]
      rfl
    · rw [List.cons_append, scanText_break _ hs (isWordBreak_of_isBlank hc) hn
        (by rintro rfl; exact absurd hc (by decide)) h0, s.readBreak_of_isBlank hc, ih]
      rfl

/-- White space ends a word and otherwise does nothing. -/
theorem scanText_gap {s s' : Cursor} {word g : Text} {events : List Event} (t : Text)
    (hs : s.comment = none) (hg : isBlankText g = true) (hne : g ≠ []) (ht : StartsQuietly t)
    (h : s.readWord word.reverse = .ok (events, s')) :
    scanText s word (g ++ t) = (scanText s' [] t).after events := by
  have hs' : s'.comment = none := by rw [Cursor.comment_of_readWord h, hs]
  cases g with
  | nil => exact absurd rfl hne
  | cons c g =>
    obtain ⟨hc, hg⟩ := isBlankText_cons.1 hg
    have hq : StartsQuietly (g ++ t) := (startsQuietly_append hg).2 ht
    by_cases hn : c = '\n'
    · subst hn
      rw [List.cons_append, scanText_newline _ hs h, scanLines_lines hs' hq,
        scanText_blank hs' g t hg ht]
    · rw [List.cons_append, scanText_break _ hs (isWordBreak_of_isBlank hc) hn
        (by rintro rfl; exact absurd hc (by decide)) h, s'.readBreak_of_isBlank hc,
        scanText_blank hs' g t hg ht]
      simp

/-! ## Comments -/

/-- Inside a comment no start of a line means anything. -/
theorem scanLines_lines_of_comment {s : Cursor} {t : Text} (hs : s.comment.isSome = true)
    (ht : t ≠ []) : scanLines s (lines t) = scanText s [] t := by
  rw [lines_of_ne_nil ht, scanLines_cons _ (Or.inl hs)]
  rfl

/-- A comment reaches to the first closing brace, over any number of lines. -/
theorem scanText_comment (depth : Nat) (finished : Bool) : ∀ (text body t : Text), '}' ∉ text →
    scanText ⟨depth, finished, some body⟩ [] (text ++ '}' :: t)
      = (scanText ⟨depth, finished, none⟩ [] t).after
          (if depth = 0 then [.comment (body.reverse ++ text)] else [])
  | [], body, t, _ => by
    rw [List.nil_append, scanText, firstLine_cons (by decide), laterLines_cons (by decide),
      scanLine]
    simp only [if_true, LineScan.resume_after, List.append_nil]
    rfl
  | c :: text, body, t, h => by
    rw [List.mem_cons, not_or] at h
    -- neither a character nor the start of a line leaves the comment
    have hstep : scanText ⟨depth, finished, some body⟩ [] (c :: (text ++ '}' :: t))
        = scanText ⟨depth, finished, some (c :: body)⟩ [] (text ++ '}' :: t) := by
      by_cases hn : c = '\n'
      · subst hn
        rw [scanText, firstLine_newline, laterLines_newline, scanLine]
        simp only [if_neg (Ne.symm h.1), scanLine, List.reverse_nil, Cursor.readWord_nil]
        exact scanLines_lines_of_comment rfl (by simp)
      · rw [scanText, firstLine_cons hn, laterLines_cons hn, scanLine]
        simp only [if_neg (Ne.symm h.1)]
        rfl
    rw [List.cons_append, hstep, scanText_comment depth finished text (c :: body) t h.2]
    simp

/-! ## Texts of words -/

theorem startsQuietly_of_words {t : Text}
    (h : ∀ w ∈ words t, w.head? ≠ some '[' ∧ w.head? ≠ some '%') : StartsQuietly t := by
  intro c hc
  cases hl : trimLeft t with
  | nil => rw [hl] at hc; simp at hc
  | cons d r =>
    rw [hl] at hc
    obtain rfl : d = c := by simpa using hc
    obtain ⟨u, ws, hw⟩ := words_of_trimLeft hl
    have := h (d :: u) (by rw [hw]; exact List.mem_cons_self)
    simpa using this

/-- A text in which only white space ends words is the sequence of its words. -/
theorem scanText_words : ∀ (t : Text) {s s' : Cursor} {word : Text} {events : List Event},
    s.comment = none → (∀ c ∈ t, isBlank c = true ∨ isWordBreak c = false) →
    (∀ w ∈ wordsFrom word t, w.head? ≠ some '[' ∧ w.head? ≠ some '%') →
    s.readWords (wordsFrom word t) = .ok (events, s') →
    scanText s word t = ⟨events, .complete, []⟩
  | [], s, s', word, events, hs, _, _, h => by
    rw [wordsFrom, ← List.append_nil (flushWord word)] at h
    obtain ⟨es, u, es', hw, hm, rfl⟩ := Cursor.readWords_flushWord h
    obtain rfl : es' = [] := by
      simp only [Cursor.readWords, Except.ok.injEq, Prod.mk.injEq] at hm
      exact hm.1.symm
    rw [scanText_nil hw hs, List.append_nil]
  | c :: t, s, s', word, events, hs, ht, hw, h => by
    have ht' : ∀ d ∈ t, isBlank d = true ∨ isWordBreak d = false :=
      fun d hd => ht d (List.mem_cons_of_mem _ hd)
    by_cases hc : isBlank c = true
    · rw [wordsFrom_cons_of_isBlank hc] at h hw
      obtain ⟨es, u, es', hr, hm, rfl⟩ := Cursor.readWords_flushWord h
      have hu : u.comment = none := by rw [Cursor.comment_of_readWord hr, hs]
      have hw' : ∀ w ∈ words t, w.head? ≠ some '[' ∧ w.head? ≠ some '%' :=
        fun w hm => hw w (List.mem_append_right _ hm)
      have hq : StartsQuietly t := startsQuietly_of_words hw'
      rw [show c :: t = [c] ++ t from rfl, scanText_gap t hs (isBlankText_cons.2 ⟨hc, rfl⟩)
        (by simp) hq hr, scanText_words t hu ht' hw' hm]
      rfl
    · have hb : isWordBreak c = false := (ht c List.mem_cons_self).resolve_left hc
      rw [wordsFrom_cons_of_not_isBlank (by simpa using hc)] at h hw
      -- a character without a word before it is the first one of the next word
      have hhead : word ≠ [] ∨ c ≠ '[' := by
        cases word with
        | cons d word => exact Or.inl (by simp)
        | nil =>
          obtain ⟨u, ws, hu⟩ := wordsFrom_of_ne_nil t (w := [c]) (by simp)
          have := (hw ([c].reverse ++ u) (by rw [hu]; exact List.mem_cons_self)).1
          exact Or.inr (by simpa using this)
      rw [scanText_letter t hs hb hhead]
      exact scanText_words t hs ht' hw h

/-! ## Lines without words -/

/-- A line of white space does nothing. -/
theorem scanLine_of_isBlankText {s : Cursor} (hs : s.comment = none) : ∀ {line : Line},
    isBlankText line = true → scanLine s [] line = ⟨[], .endOfLine s⟩
  | [], _ => by simp [scanLine]
  | c :: line, h => by
    obtain ⟨hc, h⟩ := isBlankText_cons.1 h
    have hb : (c == '[') = false := by
      rw [beq_eq_false_iff_ne]
      rintro rfl
      exact absurd hc (by decide)
    have hsemi : c ≠ ';' := by rintro rfl; exact absurd hc (by decide)
    rw [scanLine, hs]
    simp only [hb, isWordBreak_of_isBlank hc, hsemi, s.readBreak_of_isBlank hc, Bool.and_false,
      Bool.false_eq_true, List.reverse_nil, Cursor.readWord_nil, if_true, if_false,
      scanLine_of_isBlankText hs h]
    rfl

end Scoresheet.Pgn
