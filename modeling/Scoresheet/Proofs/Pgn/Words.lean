import Scoresheet.Proofs.Chess.Notation
import Scoresheet.Proofs.Pgn.ScanText
import Scoresheet.Proofs.Text.Numerals
import Scoresheet.Text.DecimalDigit

/-!
# What words report

Each kind of word that a movetext holds is dispatched to the events it should have:

* `wordEvents_of_digits` — a move number, in digits of whatever kind, reports nothing;
* `wordEvents_move` — a move reports itself and the annotation behind it;
* `wordEvents_number_append` — a move number in front of a word changes nothing.

None of them is a marker of the result (`outcomeMarker?_eq_none_of_mem` and its companions).
-/

namespace Scoresheet.Pgn

open Text Scoresheet.Chess

/-! ## Markers of the result -/

/-- The words that mark a result. -/
def outcomeWords : List Text :=
  [['1', '-', '0'], ['0', '-', '1'], ['1', '/', '2', '-', '1', '/', '2'], ['½', '-', '½'], ['*']]

theorem mem_outcomeWords {w m : Text} (h : outcomeMarker? w = some m) : w ∈ outcomeWords := by
  unfold outcomeMarker? at h
  split at h <;> first | decide | simp at h

theorem outcomeMarker?_eq_none_of_not_mem {w : Text} (h : w ∉ outcomeWords) :
    outcomeMarker? w = none := by
  cases hm : outcomeMarker? w with
  | none => rfl
  | some m => exact absurd (mem_outcomeWords hm) h

/-- A word with a character that no marker has is none. -/
theorem outcomeMarker?_eq_none_of_mem {w : Text} {c : Char} (hc : c ∈ w)
    (h : ∀ m ∈ outcomeWords, c ∉ m) : outcomeMarker? w = none :=
  outcomeMarker?_eq_none_of_not_mem fun hw => h w hw hc

/-- A word of digits and dots marks no result. -/
theorem outcomeMarker?_eq_none_of_digits {w : Text} (h : '-' ∉ w) (hs : '*' ∉ w) :
    outcomeMarker? w = none := by
  refine outcomeMarker?_eq_none_of_not_mem fun hw => ?_
  have hall : ∀ m ∈ outcomeWords, '-' ∈ m ∨ '*' ∈ m := by decide
  rcases hall w hw with hc | hc
  · exact h hc
  · exact hs hc

/-- A move is no marker of the result. -/
theorem outcomeMarker?_eq_none_of_canonical? {w s : Text} (h : San.canonical? w = some s) :
    outcomeMarker? w = none := by
  refine outcomeMarker?_eq_none_of_not_mem fun hw => ?_
  have hall : ∀ m ∈ outcomeWords, San.canonical? m = none := by decide
  rw [hall w hw] at h
  simp at h

/-- The events of a word that marks no result. -/
theorem Cursor.readWord_of_wordEvents {w : Text} {events : List Event} (s : Cursor)
    (hm : outcomeMarker? w = none) (hw : wordEvents w = .ok events) :
    s.readWord w = .ok (if s.readsWords then events else [], s) := by
  rw [readWord]
  cases hr : s.readsWords with
  | false => rfl
  | true => simp [hm, hw, Except.map]

/-! ## Move numbers -/

/-- A digit is one of ASCII or lies beyond ASCII. -/
theorem isDigitLike_iff_of_ascii {c : Char} (h : c.toNat < 0x80) :
    isDigitLike c = true ↔ isAsciiDigit c = true := by
  have h' : ¬0x80 ≤ c.toNat := by omega
  rw [isDigitLike, isDecimalDigit, decimalValue?, isAsciiDigit]
  split
  · rename_i hd
    simp [hd]
  · rename_i hd
    simp [h', hd]

/-- A character of a move number. -/
def IsNumberChar (c : Char) : Prop := isDigitLike c = true ∨ c = '.'

theorem IsNumberChar.not_mem {c : Char} (h : IsNumberChar c) {l : List Char}
    (hl : (l.all fun d => d.toNat < 0x80 && !isAsciiDigit d && d != '.') = true) : c ∉ l := by
  intro hc
  obtain ⟨⟨hd, hn⟩, hdot⟩ : (c.toNat < 0x80 ∧ isAsciiDigit c = false) ∧ c ≠ '.' := by
    simpa using List.all_eq_true.1 hl c hc
  rcases h with h | h
  · rw [isDigitLike_iff_of_ascii hd, hn] at h
    simp at h
  · exact hdot h

theorem IsNumberChar.ofLetter? {c : Char} (h : IsNumberChar c) : File.ofLetter? c = none := by
  cases hf : File.ofLetter? c with
  | none => rfl
  | some f =>
    refine absurd ?_ (h.not_mem (l := (List.finRange 8).map File.letter) (by decide))
    rw [File.eq_letter_of_ofLetter? hf]
    exact List.mem_map_of_mem (List.mem_finRange f)

theorem splitGlyph_body_subset (w : Text) : (splitGlyph w).1 ⊆ w := by
  intro c hc
  exact List.mem_reverse.1 ((List.dropWhile_suffix isGlyphChar).subset (List.mem_reverse.1 hc))

theorem moveEvents?_of_canonical?_eq_none {w : Text} (h : San.canonical? (splitGlyph w).1 = none) :
    moveEvents? w = none := by
  simp [moveEvents?, h]

/-- Digits and dots are no move. -/
theorem moveEvents?_of_digits {w : Text} (h : ∀ c ∈ w, IsNumberChar c) : moveEvents? w = none := by
  refine moveEvents?_of_canonical?_eq_none ?_
  cases hs : San.canonical? (splitGlyph w).1 with
  | none => rfl
  | some s =>
    obtain ⟨c, hc, hmark⟩ := San.exists_mark_of_canonical? hs
    have hn := h c (splitGlyph_body_subset w hc)
    rcases hmark with rfl | hf
    · exact absurd List.mem_cons_self (hn.not_mem (l := ['-']) (by decide))
    · rw [hn.ofLetter?] at hf
      simp at hf

theorem glyphCode?_eq_none {c : Char} (w : Text) (h : isGlyphChar c = false) :
    glyphCode? (c :: w) = none := by
  unfold glyphCode?
  split <;> simp_all [isGlyphChar]

theorem IsNumberChar.isGlyphChar {c : Char} (h : IsNumberChar c) : isGlyphChar c = false := by
  have hn := h.not_mem (l := ['!', '?']) (by decide)
  simp only [List.mem_cons, List.not_mem_nil, or_false, not_or] at hn
  simp [Pgn.isGlyphChar, hn.1, hn.2]

theorem dropMoveNumber_subset (w : Text) : dropMoveNumber w ⊆ w :=
  ((List.dropWhile_suffix _).trans (List.dropWhile_suffix _)).subset

/-- A word that starts with a digit and is no move counts as what stands behind its number. -/
theorem wordEvents_of_isDecimalDigit {c : Char} {w : Text} (hc : isDecimalDigit c = true)
    (hm : moveEvents? (c :: w) = none) :
    wordEvents (c :: w) = wordEvents (dropMoveNumber (c :: w)) := by
  have hn : IsNumberChar c := Or.inl (by rw [isDigitLike, hc]; rfl)
  have hdollar : c ≠ '$' := by
    rintro rfl
    exact absurd List.mem_cons_self (hn.not_mem (l := ['$']) (by decide))
  rw [wordEvents, if_neg hdollar, glyphCode?_eq_none w hn.isGlyphChar, hm]
  simp only [hc, if_true]

/-- Digits and dots report nothing. -/
theorem wordEvents_of_digits (w : Text) (h : ∀ c ∈ w, IsNumberChar c) :
    wordEvents w = .ok [] := by
  have hhead : ∀ {c : Char} {cs : Text}, (∀ d ∈ c :: cs, IsNumberChar d) → c ≠ '$' := by
    rintro c cs h rfl
    exact absurd List.mem_cons_self ((h '$' List.mem_cons_self).not_mem (l := ['$']) (by decide))
  -- what is left of digits and dots without a move number are digits and dots
  fun_induction wordEvents w with
  | case1 => rfl
  | case2 cs => exact absurd rfl (hhead h)
  | case3 cs => exact absurd rfl (hhead h)
  | case4 c cs _ code hg =>
    rw [glyphCode?_eq_none cs (h c List.mem_cons_self).isGlyphChar] at hg
    simp at hg
  | case5 c cs _ _ events hm =>
    rw [moveEvents?_of_digits h] at hm
    simp at hm
  | case6 c cs _ _ _ _ ih => exact ih fun d hm => h d (dropMoveNumber_subset _ hm)
  | case7 => rfl

/-- A number with a dot in front of a word that starts with neither is dropped. -/
theorem dropMoveNumber_append {digits dots w : Text} (hd : ∀ c ∈ digits, isAsciiDigit c = true)
    (hdots : ∀ c ∈ dots, c = '.') (hne : dots ≠ []) (hw : w.head? ≠ some '.') :
    dropMoveNumber (digits ++ dots ++ w) = w := by
  have h1 : (digits ++ (dots ++ w)).dropWhile isDecimalDigit = dots ++ w := by
    rw [List.dropWhile_append_of_pos fun c hc => isDecimalDigit_of_isAsciiDigit (hd c hc)]
    cases dots with
    | nil => exact absurd rfl hne
    | cons c dots =>
      obtain rfl := hdots c List.mem_cons_self
      exact List.dropWhile_cons_of_neg (by decide)
  have h2 : (dots ++ w).dropWhile (· == '.') = w := by
    rw [List.dropWhile_append_of_pos fun c hc => by simp [hdots c hc]]
    cases w with
    | nil => rfl
    | cons c w => exact List.dropWhile_cons_of_neg (by simpa using hw)
  rw [dropMoveNumber, List.append_assoc, h1, h2]

/-! ## Moves -/

theorem splitGlyph_append {w g : Text} (hw : ∀ c ∈ w, isGlyphChar c = false)
    (hg : ∀ c ∈ g, isGlyphChar c = true) : splitGlyph (w ++ g) = (w, g) := by
  have hrev : ∀ c ∈ g.reverse, isGlyphChar c = true := fun c hc => hg c (List.mem_reverse.1 hc)
  have hstop : w.reverse.dropWhile isGlyphChar = w.reverse
      ∧ w.reverse.takeWhile isGlyphChar = [] := by
    cases hr : w.reverse with
    | nil => exact ⟨rfl, rfl⟩
    | cons c r =>
      have hc := hw c (List.mem_reverse.1 (by rw [hr]; exact List.mem_cons_self))
      exact ⟨List.dropWhile_cons_of_neg (by simp [hc]), List.takeWhile_cons_of_neg (by simp [hc])⟩
  rw [splitGlyph, List.reverse_append, List.dropWhile_append_of_pos hrev,
    List.takeWhile_append_of_pos hrev, hstop.1, hstop.2]
  simp

theorem isGlyphChar_of_mem_alphabet {c : Char} (h : c ∈ alphabet) : isGlyphChar c = false := by
  have hall : alphabet.all (fun c => !isGlyphChar c) = true := by decide
  simpa using List.all_eq_true.1 hall c h

/-- **A move reports itself and the annotation behind it.** -/
theorem wordEvents_move {w s g : Text} (h : San.canonical? w = some s)
    (hw : ∀ c ∈ w, c ∈ alphabet) (hg : ∀ c ∈ g, isGlyphChar c = true) :
    wordEvents (w ++ g) = .ok (.san s :: (glyphCode? g).toList.map .nag) := by
  obtain ⟨c, w, rfl⟩ : ∃ c u, w = c :: u := by
    obtain ⟨c, hc, _⟩ := San.exists_mark_of_canonical? h
    exact List.exists_cons_of_ne_nil (List.ne_nil_of_mem hc)
  have hc := hw c List.mem_cons_self
  have hdollar : c ≠ '$' := by
    rintro rfl
    exact absurd hc (by decide)
  have hsplit := splitGlyph_append (fun d hd => isGlyphChar_of_mem_alphabet (hw d hd)) hg
  have hmove : moveEvents? (c :: (w ++ g)) = some (.san s :: (glyphCode? g).toList.map .nag) := by
    rw [← List.cons_append, moveEvents?, hsplit]
    simp [h]
  rw [List.cons_append, wordEvents, if_neg hdollar,
    glyphCode?_eq_none _ (isGlyphChar_of_mem_alphabet hc), hmove]

/-- A text with a dot before its annotation is no move. -/
theorem moveEvents?_of_dot {w : Text} (h : '.' ∈ (splitGlyph w).1) : moveEvents? w = none := by
  refine moveEvents?_of_canonical?_eq_none ?_
  cases hs : San.canonical? (splitGlyph w).1 with
  | none => rfl
  | some s =>
    rcases San.mem_alphabet_of_canonical? hs h with hc | hc
    · exact absurd hc (by decide)
    · exact absurd hc (by decide)

/-- **A move number with its dots changes nothing about the word behind it.** -/
theorem wordEvents_number_append {digits dots w g : Text} (hne : digits ≠ [])
    (hd : ∀ c ∈ digits, isAsciiDigit c = true) (hdots : ∀ c ∈ dots, c = '.') (hdne : dots ≠ [])
    (hw : ∀ c ∈ w, c ∈ alphabet) (hwne : w ≠ []) (hg : ∀ c ∈ g, isGlyphChar c = true) :
    wordEvents (digits ++ dots ++ (w ++ g)) = wordEvents (w ++ g) := by
  obtain ⟨c, digits, rfl⟩ := List.exists_cons_of_ne_nil hne
  obtain ⟨a, w, rfl⟩ := List.exists_cons_of_ne_nil hwne
  obtain ⟨b, dots, rfl⟩ := List.exists_cons_of_ne_nil hdne
  have hnumber : ∀ d ∈ c :: digits ++ b :: dots, IsNumberChar d := by
    intro d hm
    rcases List.mem_append.1 hm with hm | hm
    · exact Or.inl (by rw [isDigitLike, isDecimalDigit_of_isAsciiDigit (hd d hm)]; rfl)
    · exact Or.inr (hdots d hm)
  have hbody : ∀ d ∈ c :: digits ++ b :: dots ++ a :: w, isGlyphChar d = false := by
    intro d hm
    rcases List.mem_append.1 hm with hm | hm
    · exact (hnumber d hm).isGlyphChar
    · exact isGlyphChar_of_mem_alphabet (hw d hm)
  have hdot : '.' ∈ (splitGlyph (c :: digits ++ b :: dots ++ (a :: w ++ g))).1 := by
    rw [← List.append_assoc, splitGlyph_append hbody hg]
    obtain rfl := hdots b List.mem_cons_self
    simp
  have ha : a ≠ '.' := by
    rintro rfl
    exact absurd (hw '.' List.mem_cons_self) (by decide)
  have hdrop : dropMoveNumber (c :: digits ++ b :: dots ++ (a :: w ++ g)) = a :: w ++ g :=
    dropMoveNumber_append hd hdots hdne (by simpa using ha)
  calc wordEvents (c :: digits ++ b :: dots ++ (a :: w ++ g))
      = wordEvents (dropMoveNumber (c :: digits ++ b :: dots ++ (a :: w ++ g))) :=
        wordEvents_of_isDecimalDigit (isDecimalDigit_of_isAsciiDigit (hd c List.mem_cons_self))
          (moveEvents?_of_dot hdot)
    _ = wordEvents (a :: w ++ g) := by rw [hdrop]

end Scoresheet.Pgn
