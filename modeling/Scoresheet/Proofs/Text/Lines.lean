import Scoresheet.Text.Basic

/-!
# Lines and words of a text

A reader that works line by line can be followed character by character: `firstLine` and
`laterLines` say how the lines of a text change when a character is put in front of it. A text whose
last character is a line feed can be cut off without changing the lines of what follows
(`lines_append`).

Words are followed in the same way; the first of them begins with the first character that is not
white space (`words_of_trimLeft`).
-/

namespace Scoresheet.Text

/-! ## The first line -/

/-- The characters up to the first line feed, which is included. -/
def firstLine (t : Text) : Line := (lines t).headD []

/-- The lines after the first. -/
def laterLines (t : Text) : List Line := (lines t).tail

@[simp] theorem lines_nil : lines [] = [] := rfl

@[simp] theorem firstLine_nil : firstLine [] = [] := rfl

@[simp] theorem laterLines_nil : laterLines [] = [] := rfl

theorem lines_newline (t : Text) : lines ('\n' :: t) = ['\n'] :: lines t := rfl

@[simp] theorem firstLine_newline (t : Text) : firstLine ('\n' :: t) = ['\n'] := rfl

@[simp] theorem laterLines_newline (t : Text) : laterLines ('\n' :: t) = lines t := rfl

/-- The characters of a line in progress stay at its front. -/
theorem linesFrom_of_ne_nil : ∀ (t : Text) {line : Line}, line ≠ [] →
    linesFrom line t = (line.reverse ++ firstLine t) :: laterLines t
  | [], line, h => by
    cases line with
    | nil => exact absurd rfl h
    | cons c cs => simp [linesFrom, flushWord]
  | c :: t, line, _ => by
    -- the line in progress grows until a line feed ends it, so it cannot be fixed
    by_cases hc : c = '\n'
    · subst hc
      rw [linesFrom, if_pos rfl, firstLine_newline, laterLines_newline, List.reverse_cons]
      rfl
    · have h1 : linesFrom [] (c :: t) = (c :: firstLine t) :: laterLines t := by
        rw [linesFrom, if_neg hc, linesFrom_of_ne_nil t (by simp)]
        rfl
      have h2 : firstLine (c :: t) = c :: firstLine t := by
        rw [firstLine, lines, h1]
        rfl
      have h3 : laterLines (c :: t) = laterLines t := by
        rw [laterLines, lines, h1]
        rfl
      rw [linesFrom, if_neg hc, linesFrom_of_ne_nil t (by simp), h2, h3]
      simp

theorem lines_cons {c : Char} (h : c ≠ '\n') (t : Text) :
    lines (c :: t) = (c :: firstLine t) :: laterLines t := by
  rw [lines, linesFrom, if_neg h, linesFrom_of_ne_nil t (by simp)]
  rfl

theorem firstLine_cons {c : Char} (h : c ≠ '\n') (t : Text) :
    firstLine (c :: t) = c :: firstLine t := by
  rw [firstLine, lines_cons h]
  rfl

theorem laterLines_cons {c : Char} (h : c ≠ '\n') (t : Text) :
    laterLines (c :: t) = laterLines t := by
  rw [laterLines, lines_cons h]
  rfl

theorem lines_of_ne_nil {t : Text} (h : t ≠ []) : lines t = firstLine t :: laterLines t := by
  cases t with
  | nil => exact absurd rfl h
  | cons c t =>
    by_cases hc : c = '\n'
    · subst hc
      rfl
    · rw [firstLine_cons hc, laterLines_cons hc, lines_cons hc]

/-- The first line begins as the text does. -/
theorem head?_firstLine (t : Text) : (firstLine t).head? = t.head? := by
  cases t with
  | nil => rfl
  | cons c t =>
    by_cases hc : c = '\n'
    · subst hc
      rfl
    · rw [firstLine_cons hc]
      rfl

theorem firstLine_ne_nil {t : Text} (h : t ≠ []) : firstLine t ≠ [] := by
  intro h0
  have hh := head?_firstLine t
  rw [h0, List.head?_nil, eq_comm, List.head?_eq_none_iff] at hh
  exact h hh

/-- What follows the first line is cut into the later lines. -/
theorem firstLine_append_rest : ∀ t : Text, ∃ u, firstLine t ++ u = t ∧ laterLines t = lines u
  | [] => ⟨[], rfl, rfl⟩
  | c :: t => by
    by_cases hc : c = '\n'
    · subst hc
      exact ⟨t, rfl, rfl⟩
    · obtain ⟨u, hu, hl⟩ := firstLine_append_rest t
      refine ⟨u, ?_, by rw [laterLines_cons hc, hl]⟩
      rw [firstLine_cons hc, List.cons_append, hu]

/-! ## Joining texts -/

/-- A text that a line feed ends is cut into the same lines whatever follows it. -/
theorem lines_append_newline : ∀ (t u : Text),
    lines (t ++ '\n' :: u) = lines (t ++ ['\n']) ++ lines u
  | [], _ => rfl
  | c :: t, u => by
    have ih := lines_append_newline t u
    -- a line feed is a line of its own on both sides, another character joins the first line
    by_cases hc : c = '\n'
    · subst hc
      rw [List.cons_append, lines_newline, ih]
      rfl
    · have h1 : t ++ '\n' :: u ≠ [] := by simp
      have h2 : t ++ ['\n'] ≠ [] := by simp
      rw [lines_of_ne_nil h1, lines_of_ne_nil h2, List.cons_append, List.cons.injEq] at ih
      rw [List.cons_append, List.cons_append, lines_cons hc, lines_cons hc, ih.1, ih.2]
      rfl

/-- A text that is empty or ends with a line feed does not run into the text after it. -/
theorem lines_append {t : Text} (h : t = [] ∨ t.getLast? = some '\n') (u : Text) :
    lines (t ++ u) = lines t ++ lines u := by
  rcases h with rfl | h
  · rfl
  · obtain ⟨s, rfl⟩ := List.getLast?_eq_some_iff.1 h
    rw [List.append_assoc]
    exact lines_append_newline s u

/-- A text without a line feed is one line together with the line feed after it. -/
theorem lines_append_of_not_mem : ∀ {t : Text}, '\n' ∉ t → ∀ u : Text,
    lines (t ++ '\n' :: u) = (t ++ ['\n']) :: lines u
  | [], _, _ => rfl
  | c :: t, h, u => by
    rw [List.mem_cons, not_or] at h
    have ih := lines_append_of_not_mem h.2 u
    rw [lines_of_ne_nil (by simp), List.cons.injEq] at ih
    rw [List.cons_append, lines_cons (Ne.symm h.1), ih.1, ih.2]
    rfl

/-! ## Texts from lines -/

/-- A text without a line feed is one line. -/
theorem lines_of_not_mem : ∀ {t : Text}, t ≠ [] → '\n' ∉ t → lines t = [t]
  | [c], _, h => by rw [lines_cons (by simpa [eq_comm] using h)]; rfl
  | c :: d :: t, _, h => by
    rw [List.mem_cons, not_or] at h
    have ih := lines_of_not_mem (List.cons_ne_nil d t) h.2
    rw [lines_of_ne_nil (by simp), List.cons.injEq] at ih
    rw [lines_cons (Ne.symm h.1), ih.1, ih.2]

/-- The lines are those of some text: each ends with its only line feed, but the last may do
without. -/
inductive AreLines : List Line → Prop
  | nil : AreLines []
  | last {t : Text} (hne : t ≠ []) (h : '\n' ∉ t) : AreLines [t]
  | cons {t : Text} {ls : List Line} (h : '\n' ∉ t) (hls : AreLines ls) :
    AreLines ((t ++ ['\n']) :: ls)

theorem areLines_lines (t : Text) : AreLines (lines t) := by
  induction t with
  | nil => exact .nil
  | cons c t ih =>
    by_cases hc : c = '\n'
    · subst hc
      exact .cons (t := []) (by simp) ih
    · rw [lines_cons hc]
      by_cases ht : t = []
      · subst ht
        exact .last (by simp) (by simpa [eq_comm] using hc)
      · rw [lines_of_ne_nil ht] at ih
        generalize firstLine t = first at ih ⊢
        generalize laterLines t = later at ih ⊢
        cases ih with
        | last hne h => exact .last (by simp) (by simp [Ne.symm hc, h])
        | @cons u _ h hls => exact .cons (t := c :: u) (by simp [Ne.symm hc, h]) hls

/-- Lines that are put together are cut apart again. -/
theorem AreLines.lines_flatten {ls : List Line} (h : AreLines ls) : lines ls.flatten = ls := by
  induction h with
  | nil => rfl
  | last hne h => simp [lines_of_not_mem hne h]
  | cons h _ ih =>
    rw [List.flatten_cons, List.append_assoc]
    exact (lines_append_of_not_mem h _).trans (congrArg _ ih)

theorem AreLines.of_sublist {ls kept : List Line} (h : AreLines ls) (hkept : kept.Sublist ls) :
    AreLines kept := by
  induction h generalizing kept with
  | nil => rw [List.sublist_nil.1 hkept]; exact .nil
  | @last t hne h =>
    cases hkept with
    | cons _ hkept => rw [List.sublist_nil.1 hkept]; exact .nil
    | cons_cons _ hkept => rw [List.sublist_nil.1 hkept]; exact .last hne h
  | cons h _ ih =>
    cases hkept with
    | cons _ hkept => exact ih hkept
    | cons_cons _ hkept => exact .cons h (ih hkept)

/-- **A text from which lines are left out** has the other lines. -/
theorem lines_flatten_of_sublist {t : Text} {kept : List Line} (h : kept.Sublist (lines t)) :
    lines kept.flatten = kept :=
  ((areLines_lines t).of_sublist h).lines_flatten

/-! ## White space -/

theorem le_iff_toNat_le {c d : Char} : c ≤ d ↔ c.toNat ≤ d.toNat := Iff.rfl

/-- The visible characters of ASCII are no white space. -/
theorem not_isBlank_of_ascii {c : Char} (h : 32 < c.toNat) (h' : c.toNat < 0x80) :
    isBlank c = false := by
  simp only [isBlank, Bool.or_eq_false_iff, Bool.and_eq_false_iff, decide_eq_false_iff_not,
    beq_eq_false_iff_ne]
  omega

theorem isBlankText_cons {c : Char} {t : Text} :
    isBlankText (c :: t) = true ↔ isBlank c = true ∧ isBlankText t = true := by
  simp [isBlankText]

theorem isBlankText_append {t u : Text} :
    isBlankText (t ++ u) = true ↔ isBlankText t = true ∧ isBlankText u = true := by
  simp [isBlankText]

theorem trimLeft_cons_of_isBlank {c : Char} (h : isBlank c = true) (t : Text) :
    trimLeft (c :: t) = trimLeft t := List.dropWhile_cons_of_pos h

theorem trimLeft_cons_of_not_isBlank {c : Char} (h : isBlank c = false) (t : Text) :
    trimLeft (c :: t) = c :: t := List.dropWhile_cons_of_neg (by simp [h])

theorem trimLeft_append {g : Text} (h : isBlankText g = true) (t : Text) :
    trimLeft (g ++ t) = trimLeft t := by
  induction g with
  | nil => rfl
  | cons c g ih =>
    rw [isBlankText_cons] at h
    rw [List.cons_append, trimLeft_cons_of_isBlank h.1, ih h.2]

/-- White space behind a character that is none is dropped. -/
theorem trimRight_append {g : Text} (hg : isBlankText g = true) (t : Text) {c : Char}
    (hc : isBlank c = false) : trimRight (t ++ [c] ++ g) = t ++ [c] := by
  have hrev : ∀ d ∈ g.reverse, isBlank d = true :=
    fun d hd => List.all_eq_true.1 hg d (List.mem_reverse.1 hd)
  rw [trimRight, List.reverse_append, List.dropWhile_append_of_pos hrev, List.reverse_append]
  simp [hc]

/-! ## Words -/

theorem flushWord_of_ne_nil {w : Text} (h : w ≠ []) : flushWord w = [w.reverse] := by
  cases w with
  | nil => exact absurd rfl h
  | cons c w => rfl

theorem wordsFrom_cons_of_isBlank {c : Char} (h : isBlank c = true) (w t : Text) :
    wordsFrom w (c :: t) = flushWord w ++ words t := by
  rw [wordsFrom, if_pos h]
  rfl

theorem wordsFrom_cons_of_not_isBlank {c : Char} (h : isBlank c = false) (w t : Text) :
    wordsFrom w (c :: t) = wordsFrom (c :: w) t := by
  rw [wordsFrom, if_neg (by simp [h])]

/-- The characters of a word in progress stay at its front. -/
theorem wordsFrom_of_ne_nil : ∀ (t : Text) {w : Text}, w ≠ [] →
    ∃ u ws, wordsFrom w t = (w.reverse ++ u) :: ws
  | [], w, h => ⟨[], [], by rw [wordsFrom, flushWord_of_ne_nil h, List.append_nil]⟩
  | c :: t, w, h => by
    by_cases hc : isBlank c = true
    · exact ⟨[], words t, by
        rw [wordsFrom_cons_of_isBlank hc, flushWord_of_ne_nil h, List.append_nil]; rfl⟩
    · obtain ⟨u, ws, hu⟩ := wordsFrom_of_ne_nil t (w := c :: w) (by simp)
      refine ⟨c :: u, ws, ?_⟩
      rw [wordsFrom_cons_of_not_isBlank (by simpa using hc), hu]
      simp

/-- The first word begins with the first character that is not white space. -/
theorem words_of_trimLeft {t r : Text} {c : Char} (h : trimLeft t = c :: r) :
    ∃ u ws, words t = (c :: u) :: ws := by
  induction t with
  | nil => simp [trimLeft] at h
  | cons d t ih =>
    by_cases hd : isBlank d = true
    · rw [trimLeft_cons_of_isBlank hd] at h
      rw [words, wordsFrom_cons_of_isBlank hd]
      exact ih h
    · have hd' : isBlank d = false := by simpa using hd
      rw [trimLeft_cons_of_not_isBlank hd', List.cons.injEq] at h
      obtain ⟨u, ws, hu⟩ := wordsFrom_of_ne_nil t (w := [d]) (by simp)
      refine ⟨u, ws, ?_⟩
      rw [words, wordsFrom_cons_of_not_isBlank hd', hu, h.1]
      rfl

theorem words_eq_nil_of_isBlankText {t : Text} (h : isBlankText t = true) : words t = [] := by
  induction t with
  | nil => rfl
  | cons c t ih =>
    rw [isBlankText_cons] at h
    rw [words, wordsFrom_cons_of_isBlank h.1, ih h.2]
    rfl

/-- Words consist of characters of the text that are not white space. -/
theorem mem_of_mem_wordsFrom : ∀ (t : Text) {w v : Text} {c : Char}, v ∈ wordsFrom w t → c ∈ v →
    c ∈ w ∨ c ∈ t ∧ isBlank c = false
  | [], w, v, c, hv, hc => by
    cases w with
    | nil => simp [wordsFrom, flushWord] at hv
    | cons d w =>
      rw [wordsFrom, flushWord_of_ne_nil (by simp), List.mem_singleton] at hv
      subst hv
      exact Or.inl (List.mem_reverse.1 hc)
  | d :: t, w, v, c, hv, hc => by
    by_cases hd : isBlank d = true
    · rw [wordsFrom_cons_of_isBlank hd, List.mem_append] at hv
      rcases hv with hv | hv
      · rcases mem_of_mem_wordsFrom [] (w := w) hv hc with h | h
        · exact Or.inl h
        · simp at h
      · rcases mem_of_mem_wordsFrom t hv hc with h | h
        · simp at h
        · exact Or.inr ⟨List.mem_cons_of_mem _ h.1, h.2⟩
    · have hd' : isBlank d = false := by simpa using hd
      rw [wordsFrom_cons_of_not_isBlank hd'] at hv
      rcases mem_of_mem_wordsFrom t hv hc with h | h
      · rcases List.mem_cons.1 h with rfl | h
        · exact Or.inr ⟨List.mem_cons_self, hd'⟩
        · exact Or.inl h
      · exact Or.inr ⟨List.mem_cons_of_mem _ h.1, h.2⟩

theorem mem_of_mem_words {t v : Text} {c : Char} (hv : v ∈ words t) (hc : c ∈ v) :
    c ∈ t ∧ isBlank c = false := by
  rcases mem_of_mem_wordsFrom t hv hc with h | h
  · simp at h
  · exact h

end Scoresheet.Text
