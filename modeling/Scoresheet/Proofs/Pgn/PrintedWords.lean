import Scoresheet.Proofs.Pgn.Words

/-!
# Printed words are read back

The printer of words beside the reader. A word of a movetext is a move with an optional number glued
before it and an optional annotation behind it, a number, a numeric annotation or an annotation in
punctuation. `readWord_toText` says that a word gives back its events where words count.

The shapes of words are structures that hold what makes them well formed, so every word that can be
built can be printed.
-/

namespace Scoresheet.Pgn

open Text Scoresheet.Chess

/-! ## Words -/

/-- ASCII digits with any number of dots behind them. -/
structure MoveNumber where
  digits : Text
  dots : Nat
  isNumeral_digits : isNumeral digits = true

namespace MoveNumber

def toText (n : MoveNumber) : Text := n.digits ++ List.replicate n.dots '.'

theorem isNumberChar_of_mem {n : MoveNumber} {c : Char} (h : c ∈ n.toText) : IsNumberChar c := by
  rw [toText] at h
  rcases List.mem_append.1 h with h | h
  · refine Or.inl ?_
    have hd := isAsciiDigit_of_isNumeral n.isNumeral_digits h
    rw [isDigitLike, isDecimalDigit_of_isAsciiDigit hd]
    rfl
  · exact Or.inr (List.eq_of_mem_replicate h)

end MoveNumber

/-- A text that is the canonical spelling of a move. -/
structure CanonicalSan where
  text : Text
  canonical : San.canonical? text = some text

/-- The annotations in punctuation. -/
inductive Glyph
  | good
  | mistake
  | brilliant
  | blunder
  | interesting
  | dubious
  deriving DecidableEq, Repr

namespace Glyph

def toText : Glyph → Text
  | good => ['!']
  | mistake => ['?']
  | brilliant => ['!', '!']
  | blunder => ['?', '?']
  | interesting => ['!', '?']
  | dubious => ['?', '!']

/-- The code of the numeric annotation of the same meaning. -/
def code : Glyph → Nat
  | good => 1
  | mistake => 2
  | brilliant => 3
  | blunder => 4
  | interesting => 5
  | dubious => 6

@[simp] theorem glyphCode?_toText (g : Glyph) : glyphCode? g.toText = some g.code := by
  cases g <;> rfl

theorem isGlyphChar_of_mem {g : Glyph} {c : Char} (h : c ∈ g.toText) : isGlyphChar c = true := by
  have hall : g.toText.all isGlyphChar = true := by cases g <;> rfl
  exact List.all_eq_true.1 hall c h

theorem mark_mem (g : Glyph) : '!' ∈ g.toText ∨ '?' ∈ g.toText := by cases g <;> decide

end Glyph

/-- A numeral that is short enough to be converted. -/
structure NagNumeral where
  digits : Text
  isNumeral_digits : isNumeral digits = true
  length_le : digits.length ≤ maxDigits

/-- The number that a numeral denotes. -/
def NagNumeral.value (n : NagNumeral) : Nat := Nat.ofDigitChars 10 n.digits 0

/-- A word of a printed movetext. -/
inductive MoveWord
  /-- A move, perhaps with a number and one dot more glued before it and an annotation behind it. -/
  | move (number : Option MoveNumber) (san : CanonicalSan) (glyph : Option Glyph)
  | moveNumber (number : MoveNumber)
  | nag (numeral : NagNumeral)
  | annotation (glyph : Glyph)

namespace MoveWord

/-- The number that is glued before a move. -/
def gluedText (n : MoveNumber) : Text := n.toText ++ ['.']

def toText : MoveWord → Text
  | move number san glyph =>
    (number.map gluedText).getD [] ++ (san.text ++ (glyph.map Glyph.toText).getD [])
  | moveNumber n => n.toText
  | nag n => '$' :: n.digits
  | annotation g => g.toText

def events : MoveWord → List Event
  | move _ san glyph => .san san.text :: (glyph.map Glyph.code).toList.map .nag
  | moveNumber _ => []
  | nag n => [.nag n.value]
  | annotation g => [.nag g.code]

/-! ### The characters of words -/

/-- A character that may stand in a word and at its start. -/
def IsWordChar (c : Char) : Prop := isWordBreak c = false ∧ c ≠ '[' ∧ c ≠ '%'

theorem isWordChar_of_isAsciiDigit {c : Char} (h : isAsciiDigit c = true) : IsWordChar c := by
  simp only [isAsciiDigit, Bool.and_eq_true, decide_eq_true_eq, le_iff_toNat_le] at h
  have h1 : 48 ≤ c.toNat := h.1
  have h2 : c.toNat ≤ 57 := h.2
  have hb : isBlank c = false := not_isBlank_of_ascii (by omega) (by omega)
  have hne : ∀ d : Char, d.toNat < 48 ∨ 57 < d.toNat → c ≠ d := by
    rintro d hd rfl
    omega
  refine ⟨?_, hne '[' (by decide), hne '%' (by decide)⟩
  simp [isWordBreak, hb, hne]

theorem isWordChar_of_mem {l : List Char} (hl : (l.all fun c => !isWordBreak c && c != '[' &&
    c != '%') = true) {c : Char} (h : c ∈ l) : IsWordChar c := by
  have hc := List.all_eq_true.1 hl c h
  simp only [Bool.and_eq_true, Bool.not_eq_true', bne_iff_ne] at hc
  exact ⟨hc.1.1, hc.1.2, hc.2⟩

theorem isWordChar_of_mem_number {n : MoveNumber} {c : Char} (h : c ∈ n.toText) :
    IsWordChar c := by
  rw [MoveNumber.toText] at h
  rcases List.mem_append.1 h with h | h
  · exact isWordChar_of_isAsciiDigit (isAsciiDigit_of_isNumeral n.isNumeral_digits h)
  · exact isWordChar_of_mem (l := ['.']) (by decide) (by simpa using List.eq_of_mem_replicate h)

theorem isWordChar_of_mem_glyph {g : Glyph} {c : Char} (h : c ∈ g.toText) : IsWordChar c :=
  isWordChar_of_mem (by cases g <;> decide) h

theorem mem_alphabet_of_mem_san {s : CanonicalSan} {c : Char} (h : c ∈ s.text) : c ∈ alphabet :=
  San.mem_alphabet_of_mem_canonical s.canonical h

/-- A word consists of characters that end no word and open no line. -/
theorem isWordChar_of_mem_toText {w : MoveWord} {c : Char} (h : c ∈ w.toText) : IsWordChar c := by
  unfold toText at h
  cases w with
  | move number san glyph =>
    rcases List.mem_append.1 h with h | h
    · cases number with
      | none => simp at h
      | some n =>
        rcases List.mem_append.1 h with h | h
        · exact isWordChar_of_mem_number h
        · exact isWordChar_of_mem (l := ['.']) (by decide) h
    · rcases List.mem_append.1 h with h | h
      · exact isWordChar_of_mem (by decide) (mem_alphabet_of_mem_san h)
      · cases glyph with
        | none => simp at h
        | some g => exact isWordChar_of_mem_glyph h
  | moveNumber n => exact isWordChar_of_mem_number h
  | nag n =>
    rcases List.mem_cons.1 h with h | h
    · exact isWordChar_of_mem (l := ['$']) (by decide) (by simpa using h)
    · exact isWordChar_of_isAsciiDigit (isAsciiDigit_of_isNumeral n.isNumeral_digits h)
  | annotation g => exact isWordChar_of_mem_glyph h

theorem san_ne_nil (s : CanonicalSan) : s.text ≠ [] := by
  obtain ⟨c, hc, _⟩ := San.exists_mark_of_canonical? s.canonical
  exact List.ne_nil_of_mem hc

theorem toText_ne_nil (w : MoveWord) : w.toText ≠ [] := by
  cases w with
  | move number san glyph => simp [toText, san_ne_nil]
  | moveNumber n => simp [toText, MoveNumber.toText, ne_nil_of_isNumeral n.isNumeral_digits]
  | nag n => simp [toText]
  | annotation g => cases g <;> simp [toText, Glyph.toText]

/-! ### The events of words -/

theorem wordEvents_toText (w : MoveWord) : wordEvents w.toText = .ok w.events := by
  cases w with
  | move number san glyph =>
    have halpha : ∀ c ∈ san.text, c ∈ alphabet := fun c hc => mem_alphabet_of_mem_san hc
    have hglyph : ∀ c ∈ (glyph.map Glyph.toText).getD [], isGlyphChar c = true := by
      cases glyph with
      | none => simp
      | some g => exact fun c hc => Glyph.isGlyphChar_of_mem hc
    have hmove : wordEvents (san.text ++ (glyph.map Glyph.toText).getD [])
        = .ok (move number san glyph).events := by
      rw [wordEvents_move san.canonical halpha hglyph]
      cases glyph with
      | none => rfl
      | some g => rw [Option.map_some, Option.getD_some, Glyph.glyphCode?_toText]; rfl
    cases number with
    | none => exact hmove
    | some n =>
      have htext : (move (some n) san glyph).toText
          = n.digits ++ (List.replicate n.dots '.' ++ ['.'])
            ++ (san.text ++ (glyph.map Glyph.toText).getD []) := by
        simp [toText, gluedText, MoveNumber.toText]
      rw [htext, wordEvents_number_append (ne_nil_of_isNumeral n.isNumeral_digits)
        (fun c hc => isAsciiDigit_of_isNumeral n.isNumeral_digits hc) _ (by simp) halpha
        (san_ne_nil san) hglyph, hmove]
      intro c hc
      rcases List.mem_append.1 hc with hc | hc
      · exact List.eq_of_mem_replicate hc
      · simpa using hc
  | moveNumber n =>
    exact wordEvents_of_digits _ fun c hc => n.isNumberChar_of_mem hc
  | nag n =>
    rw [toText, wordEvents, if_pos rfl, if_pos n.isNumeral_digits, readNumeral, if_pos n.length_le]
    rfl
  | annotation g =>
    cases g <;> simp [toText, Glyph.toText, wordEvents, glyphCode?, events, Glyph.code]

theorem outcomeMarker?_toText (w : MoveWord) : outcomeMarker? w.toText = none := by
  cases w with
  | move number san glyph =>
    cases number with
    | some n =>
      exact outcomeMarker?_eq_none_of_mem (c := '.') (by simp [toText, gluedText]) (by decide)
    | none =>
      cases glyph with
      | none =>
        rw [toText]
        simpa using outcomeMarker?_eq_none_of_canonical? san.canonical
      | some g =>
        rcases g.mark_mem with h | h
        · exact outcomeMarker?_eq_none_of_mem (c := '!') (by simp [toText, h]) (by decide)
        · exact outcomeMarker?_eq_none_of_mem (c := '?') (by simp [toText, h]) (by decide)
  | moveNumber n =>
    exact outcomeMarker?_eq_none_of_digits
      (fun hc => (n.isNumberChar_of_mem hc).not_mem (l := ['-']) (by decide) List.mem_cons_self)
      (fun hc => (n.isNumberChar_of_mem hc).not_mem (l := ['*']) (by decide) List.mem_cons_self)
  | nag n => exact outcomeMarker?_eq_none_of_mem (c := '$') (by simp [toText]) (by decide)
  | annotation g =>
    rcases g.mark_mem with h | h
    · exact outcomeMarker?_eq_none_of_mem (c := '!') h (by decide)
    · exact outcomeMarker?_eq_none_of_mem (c := '?') h (by decide)

/-- A printed word is read back where words count, and is passed over elsewhere. -/
theorem readWord_toText (w : MoveWord) (s : Cursor) :
    s.readWord w.toText = .ok (if s.readsWords then w.events else [], s) :=
  s.readWord_of_wordEvents w.outcomeMarker?_toText w.wordEvents_toText

end MoveWord

end Scoresheet.Pgn
