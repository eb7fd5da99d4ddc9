import Scoresheet.Proofs.Text.Lines

/-!
# Texts put together

A text is *tight* if visible characters stand at both its ends. Tight texts stay tight when they are
put together, whatever separates them, so nothing is trimmed off the whole (`trim_join`). A
character that is replaced in the whole is replaced in each part (`replaceChar_join`). Words with a
space between neighbours are found again (`words_join`).
-/

namespace Scoresheet.Text

variable {sep t u : Text} {ts : List Text}

@[simp] theorem join_nil : join sep [] = [] := List.intercalate_nil

@[simp] theorem join_singleton : join sep [t] = t := List.intercalate_singleton

theorem join_cons (h : ts ≠ []) : join sep (t :: ts) = t ++ (sep ++ join sep ts) := by
  unfold join
  rw [List.intercalate_cons_of_ne_nil h, List.append_assoc]

theorem not_mem_join {c : Char} (hsep : c ∉ sep) (h : ∀ t ∈ ts, c ∉ t) : c ∉ join sep ts := by
  induction ts with
  | nil => simp
  | cons t ts ih =>
    obtain ⟨ht, hts⟩ := List.forall_mem_cons.1 h
    by_cases hnil : ts = []
    · subst hnil
      rw [join_singleton]
      exact ht
    · rw [join_cons hnil]
      simp [ht, hsep, ih hts]

/-! ## Tight texts -/

/-- A text with visible characters at both ends. -/
structure IsTight (t : Text) : Prop where
  head : ∃ c u, t = c :: u ∧ isBlank c = false
  last : ∃ u c, t = u ++ [c] ∧ isBlank c = false

theorem isTight_of_visible (hne : t ≠ []) (h : ∀ c ∈ t, isBlank c = false) : IsTight t := by
  constructor
  · obtain ⟨c, u, rfl⟩ := List.exists_cons_of_ne_nil hne
    exact ⟨c, u, rfl, h c List.mem_cons_self⟩
  · obtain ⟨u, c, rfl⟩ := List.eq_nil_or_concat t |>.resolve_left hne
    exact ⟨u, c, List.concat_eq_append, h c (by simp)⟩

namespace IsTight

theorem append (ht : IsTight t) (hu : IsTight u) (sep : Text) : IsTight (t ++ (sep ++ u)) := by
  obtain ⟨c, t', rfl, hc⟩ := ht.head
  obtain ⟨u', d, rfl, hd⟩ := hu.last
  exact ⟨⟨c, t' ++ (sep ++ (u' ++ [d])), rfl, hc⟩, ⟨c :: t' ++ (sep ++ u'), d, by simp, hd⟩⟩

theorem isBlankText (h : IsTight t) : isBlankText t = false := by
  obtain ⟨c, u, rfl, hc⟩ := h.head
  simp [Text.isBlankText, hc]

theorem trimLeft (h : IsTight t) : trimLeft t = t := by
  obtain ⟨c, u, rfl, hc⟩ := h.head
  exact trimLeft_cons_of_not_isBlank hc u

theorem trim (h : IsTight t) : trim t = t := by
  obtain ⟨u, c, hu, hc⟩ := h.last
  have hright := trimRight_append (g := []) rfl u hc
  rw [List.append_nil] at hright
  rw [Text.trim, h.trimLeft, hu, hright]

end IsTight

theorem isPrefix_trimRight (t : Text) : trimRight t <+: t := by
  rw [trimRight, ← List.reverse_suffix, List.reverse_reverse]
  exact List.dropWhile_suffix isBlank

/-- **Nothing blank is left** at the ends of a text that is trimmed. -/
theorem isTight_trim (h : trim t ≠ []) : IsTight (trim t) := by
  have hhead : ∀ {u v : Text} {c : Char}, u.dropWhile isBlank = c :: v → isBlank c = false := by
    intro u v c hcons
    have hnot := List.head_dropWhile_not isBlank (l := u) (by simp [hcons])
    simpa [hcons] using hnot
  constructor
  · obtain ⟨c, u, hcons⟩ := List.exists_cons_of_ne_nil h
    obtain ⟨v, hv⟩ := isPrefix_trimRight (trimLeft t)
    rw [← trim, hcons, List.cons_append] at hv
    exact ⟨c, u, hcons, hhead hv.symm⟩
  · obtain ⟨c, u, hcons⟩ := List.exists_cons_of_ne_nil (List.reverse_ne_nil_iff.2 h)
    have hlast : (trimLeft t).reverse.dropWhile isBlank = c :: u := by
      rw [← hcons, trim, trimRight, List.reverse_reverse]
    exact ⟨u.reverse, c, by rw [← List.reverse_reverse (trim t), hcons, List.reverse_cons],
      hhead hlast⟩

theorem trim_of_isBlankText (h : isBlankText t = true) : trim t = [] := by
  have hleft := trimLeft_append h []
  rw [List.append_nil] at hleft
  rw [trim, hleft]
  rfl

theorem trim_trim (t : Text) : trim (trim t) = trim t := by
  by_cases h : trim t = []
  · rw [h]
    rfl
  · exact (isTight_trim h).trim

theorem isTight_join (hne : ts ≠ []) (h : ∀ t ∈ ts, IsTight t) : IsTight (join sep ts) := by
  induction ts with
  | nil => exact absurd rfl hne
  | cons t ts ih =>
    have ht := h t List.mem_cons_self
    cases ts with
    | nil =>
      rw [join_singleton]
      exact ht
    | cons u us =>
      rw [join_cons (by simp)]
      exact ht.append (ih (by simp) fun v hv => h v (List.mem_cons_of_mem _ hv)) sep

/-- Nothing is trimmed off tight texts that are put together. -/
theorem trim_join (h : ∀ t ∈ ts, IsTight t) : trim (join sep ts) = join sep ts := by
  by_cases hne : ts = []
  · subst hne
    rfl
  · exact (isTight_join hne h).trim

/-! ## Replacing a character -/

variable {old new : Char}

theorem replaceChar_append :
    replaceChar old new (t ++ u) = replaceChar old new t ++ replaceChar old new u :=
  List.map_append

theorem replaceChar_of_not_mem (h : old ∉ t) : replaceChar old new t = t := by
  have hkeep : ∀ c ∈ t, (if c = old then new else c) = id c := by
    intro c hc
    refine if_neg ?_
    rintro rfl
    exact h hc
  unfold replaceChar
  rw [List.map_congr_left hkeep, List.map_id]

theorem replaceChar_join (hsep : old ∉ sep) :
    replaceChar old new (join sep ts) = join sep (ts.map (replaceChar old new)) := by
  induction ts with
  | nil => rfl
  | cons t ts ih =>
    by_cases hts : ts = []
    · subst hts
      rw [join_singleton, List.map_singleton, join_singleton]
    · have hmap : ts.map (replaceChar old new) ≠ [] := by simpa using hts
      rw [join_cons hts, replaceChar_append, replaceChar_append, ih, replaceChar_of_not_mem hsep,
        List.map_cons, join_cons hmap]

/-! ## Words put together -/

/-- A text of visible characters, one at least. -/
structure IsWord (t : Text) : Prop where
  ne_nil : t ≠ []
  visible : ∀ c ∈ t, isBlank c = false

/-- A word can be checked character by character. -/
theorem isWord_of_all (hne : t.isEmpty = false) (h : t.all (!isBlank ·) = true) : IsWord t where
  ne_nil := by simpa using hne
  visible := by simpa using h

theorem IsWord.isTight (h : IsWord t) : IsTight t := isTight_of_visible h.ne_nil h.visible

/-- Visible characters join the word in progress. -/
theorem wordsFrom_append (h : ∀ c ∈ t, isBlank c = false) (w u : Text) :
    wordsFrom w (t ++ u) = wordsFrom (t.reverse ++ w) u := by
  induction t generalizing w with
  | nil => rfl
  | cons c t ih =>
    obtain ⟨hc, ht⟩ := List.forall_mem_cons.1 h
    rw [List.cons_append, wordsFrom_cons_of_not_isBlank hc, ih ht, List.reverse_cons,
      List.append_assoc]
    rfl

theorem IsWord.words (h : IsWord t) : words t = [t] := by
  have happend := wordsFrom_append h.visible [] []
  rw [List.append_nil, List.append_nil] at happend
  rw [Text.words, happend, wordsFrom, flushWord_of_ne_nil (by simpa using h.ne_nil),
    List.reverse_reverse]

/-- A space ends a word. -/
theorem IsWord.words_append (h : IsWord t) (u : Text) :
    Text.words (t ++ ([' '] ++ u)) = t :: Text.words u := by
  have hspace : isBlank ' ' = true := by decide
  rw [Text.words, wordsFrom_append h.visible, List.append_nil, List.singleton_append,
    wordsFrom_cons_of_isBlank hspace, flushWord_of_ne_nil (by simpa using h.ne_nil),
    List.reverse_reverse]
  rfl

/-- **Words with spaces between them are found again.** -/
theorem words_join (h : ∀ t ∈ ts, IsWord t) : words (join [' '] ts) = ts := by
  induction ts with
  | nil => rfl
  | cons t ts ih =>
    obtain ⟨ht, hts⟩ := List.forall_mem_cons.1 h
    by_cases hnil : ts = []
    · subst hnil
      rw [join_singleton, ht.words]
    · rw [join_cons hnil, ht.words_append, ih hts]

end Scoresheet.Text
