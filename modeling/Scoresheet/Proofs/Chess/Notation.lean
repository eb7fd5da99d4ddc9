import Scoresheet.Chess.San

/-!
# The characters of move texts

A move text is read from characters of a small alphabet (`mem_alphabet_of_canonical?`), and its
canonical spelling is written in it (`mem_alphabet_of_mem_canonical`). So no character that
separates words, opens a comment or stands in a move number occurs in one. On the other hand a move
text always names a file or holds a hyphen (`exists_mark_of_canonical?`), which a numeral does not.

Only castling is written with a hyphen, so reading a canonical spelling finds what was written, and
respelling it changes nothing (`canonical?_of_canonical?`).
-/

namespace Scoresheet.Chess

open Text

/-- The characters that occur in move texts. -/
def alphabet : List Char :=
  ['N', 'B', 'R', 'Q', 'K', 'n', 'r', 'q', 'k', 'a', 'b', 'c', 'd', 'e', 'f', 'g', 'h',
    '0', '1', '2', '3', '4', '5', '6', '7', '8', 'O', 'x', '-', '=', '+', '#']

theorem mem_alphabet_of_all {t : Text} (h : t.all (alphabet.contains ·) = true) {c : Char}
    (hc : c ∈ t) : c ∈ alphabet := by
  simpa using List.all_eq_true.1 h c hc

/-! ## The classes of the notation -/

theorem File.letter_mem_alphabet (f : File) : f.letter ∈ alphabet := by revert f; decide

theorem Rank.digit_mem_alphabet (r : Rank) : r.digit ∈ alphabet := by revert r; decide

theorem Officer.letter_mem_alphabet (o : Officer) : o.letter ∈ alphabet := by cases o <;> decide

theorem CheckMark.char_mem_alphabet (m : CheckMark) : m.char ∈ alphabet := by cases m <;> decide

theorem File.letter_ne_hyphen (f : File) : f.letter ≠ '-' := by revert f; decide

theorem Rank.digit_ne_hyphen (r : Rank) : r.digit ≠ '-' := by revert r; decide

theorem Officer.letter_ne_hyphen (o : Officer) : o.letter ≠ '-' := by cases o <;> decide

theorem CheckMark.char_ne_hyphen (m : CheckMark) : m.char ≠ '-' := by cases m <;> decide

theorem File.eq_letter_of_ofLetter? {c : Char} {f : File} (h : File.ofLetter? c = some f) :
    c = f.letter := by
  unfold File.ofLetter? at h
  split at h
  · rename_i hc
    rw [Option.some.injEq] at h
    subst h
    rw [File.letter, show 0x61 + (c.toNat - 0x61) = c.toNat by omega, Char.ofNat_toNat]
  · simp at h

theorem Rank.eq_digit_of_ofDigit? {c : Char} {r : Rank} (h : Rank.ofDigit? c = some r) :
    c = r.digit := by
  unfold Rank.ofDigit? at h
  split at h
  · rename_i hc
    rw [Option.some.injEq] at h
    subst h
    rw [Rank.digit, show 0x31 + (c.toNat - 0x31) = c.toNat by omega, Char.ofNat_toNat]
  · simp at h

theorem File.mem_alphabet_of_ofLetter? {c : Char} (h : (File.ofLetter? c).isSome) :
    c ∈ alphabet := by
  obtain ⟨f, hf⟩ := Option.isSome_iff_exists.1 h
  rw [File.eq_letter_of_ofLetter? hf]
  exact f.letter_mem_alphabet

theorem Rank.mem_alphabet_of_ofDigit? {c : Char} (h : (Rank.ofDigit? c).isSome) :
    c ∈ alphabet := by
  obtain ⟨r, hr⟩ := Option.isSome_iff_exists.1 h
  rw [Rank.eq_digit_of_ofDigit? hr]
  exact r.digit_mem_alphabet

theorem Officer.mem_alphabet_of_ofLetter? {c : Char} (h : (Officer.ofLetter? c).isSome) :
    c ∈ alphabet := by
  unfold Officer.ofLetter? at h
  split at h <;> first | decide | simp at h

theorem Officer.mem_alphabet_of_ofEitherLetter? {c : Char}
    (h : (Officer.ofEitherLetter? c).isSome) : c ∈ alphabet := by
  unfold Officer.ofEitherLetter? at h
  split at h
  · decide
  · decide
  · decide
  · decide
  · decide
  · exact Officer.mem_alphabet_of_ofLetter? h

theorem CheckMark.mem_alphabet_of_ofChar? {c : Char} (h : (CheckMark.ofChar? c).isSome) :
    c ∈ alphabet := by
  unfold CheckMark.ofChar? at h
  split at h <;> first | decide | simp at h

theorem MoveText.mem_alphabet_of_separator? {c : Char} (h : (MoveText.separator? c).isSome) :
    c ∈ alphabet := by
  unfold MoveText.separator? at h
  split at h <;> first | decide | simp at h

/-! ## Reading -/

/-- A character is taken only if it belongs to the class. -/
theorem mem_takeOne {α : Type} (read : Char → Option α) {t : Text} {c : Char} (h : c ∈ t) :
    (read c).isSome ∨ c ∈ (takeOne read t).2 := by
  cases t with
  | nil => simp at h
  | cons d t =>
    rw [takeOne]
    cases hd : read d with
    | none => exact Or.inr h
    | some a =>
      rcases List.mem_cons.1 h with rfl | h
      · exact Or.inl (by rw [hd]; rfl)
      · exact Or.inr h

/-- Taking a character leaves the end of the text. -/
theorem takeOne_suffix {α : Type} (read : Char → Option α) (t : Text) :
    (takeOne read t).2 <:+ t := by
  cases t with
  | nil => exact List.suffix_rfl
  | cons d t =>
    rw [takeOne]
    cases read d with
    | none => exact List.suffix_rfl
    | some a => exact List.suffix_cons d t

namespace MoveText

/-- The text without the equals sign of a promotion. -/
def dropEquals (promotion : Option Officer) (t : Text) : Text :=
  match promotion, t with
  | some _, '=' :: cs => cs
  | _, cs => cs

theorem mem_dropEquals {promotion : Option Officer} {t : Text} {c : Char} (h : c ∈ t) :
    c = '=' ∨ c ∈ dropEquals promotion t := by
  unfold dropEquals
  split
  · exact List.mem_cons.1 h
  · exact Or.inr h

theorem dropEquals_suffix (promotion : Option Officer) (t : Text) :
    dropEquals promotion t <:+ t := by
  unfold dropEquals
  split
  · exact List.suffix_cons _ _
  · exact List.suffix_rfl

/-- What stands behind the target of a move: a mark and, before it, a promotion. -/
def dropEnding (t : Text) : Text :=
  let t := (takeOne CheckMark.ofChar? t).2
  dropEquals (takeOne Officer.ofEitherLetter? t).1 (takeOne Officer.ofEitherLetter? t).2

/-- What stands before the target of a move: a separator, then the source and the officer. -/
def dropSource (t : Text) : Text :=
  (takeOne Officer.ofLetter? (takeOne File.ofLetter? (takeOne Rank.ofDigit?
    (takeOne separator? t).2).2).2).2

theorem mem_dropEnding {t : Text} {c : Char} (h : c ∈ t) : c ∈ alphabet ∨ c ∈ dropEnding t := by
  rcases mem_takeOne CheckMark.ofChar? h with h | h
  · exact Or.inl (CheckMark.mem_alphabet_of_ofChar? h)
  rcases mem_takeOne Officer.ofEitherLetter? h with h | h
  · exact Or.inl (Officer.mem_alphabet_of_ofEitherLetter? h)
  rcases mem_dropEquals h with rfl | h
  · exact Or.inl (by decide)
  · exact Or.inr h

theorem mem_dropSource {t : Text} {c : Char} (h : c ∈ t) : c ∈ alphabet ∨ c ∈ dropSource t := by
  rcases mem_takeOne separator? h with h | h
  · exact Or.inl (mem_alphabet_of_separator? h)
  rcases mem_takeOne Rank.ofDigit? h with h | h
  · exact Or.inl (Rank.mem_alphabet_of_ofDigit? h)
  rcases mem_takeOne File.ofLetter? h with h | h
  · exact Or.inl (File.mem_alphabet_of_ofLetter? h)
  rcases mem_takeOne Officer.ofLetter? h with h | h
  · exact Or.inl (Officer.mem_alphabet_of_ofLetter? h)
  · exact Or.inr h

/-- The parts of a move text that is read from its end. -/
theorem dropEnding_of_readReversed? {t : Text} {m : MoveText} (h : readReversed? t = some m) :
    ∃ r f u, dropEnding t = r :: f :: u ∧ (Rank.ofDigit? r).isSome ∧ (File.ofLetter? f).isSome ∧
      dropSource u = [] := by
  unfold readReversed? at h
  simp only at h
  split at h
  · rename_i r f u heq
    split at h
    · rename_i rank file hr hf
      split at h
      · rename_i hu
        exact ⟨r, f, u, heq, by rw [hr]; rfl, by rw [hf]; rfl, List.isEmpty_iff.1 hu⟩
      · simp at h
    · simp at h
  · simp at h

theorem mem_alphabet_of_read? {t : Text} {m : MoveText} (h : read? t = some m) {c : Char}
    (hc : c ∈ t) : c ∈ alphabet := by
  obtain ⟨r, f, u, ht, hr, hf, hu⟩ := dropEnding_of_readReversed? h
  rcases mem_dropEnding (List.mem_reverse.2 hc) with hc | hc
  · exact hc
  rw [ht, List.mem_cons, List.mem_cons] at hc
  rcases hc with rfl | rfl | hc
  · exact Rank.mem_alphabet_of_ofDigit? hr
  · exact File.mem_alphabet_of_ofLetter? hf
  rcases mem_dropSource hc with hc | hc
  · exact hc
  · rw [hu] at hc
    simp at hc

/-- A move text names the file of its target. -/
theorem exists_fileLetter_of_read? {t : Text} {m : MoveText} (h : read? t = some m) :
    ∃ c ∈ t, (File.ofLetter? c).isSome := by
  obtain ⟨r, f, u, ht, _, hf, _⟩ := dropEnding_of_readReversed? h
  have hsuffix : dropEnding t.reverse <:+ t.reverse :=
    ((dropEquals_suffix _ _).trans (takeOne_suffix _ _)).trans (takeOne_suffix _ _)
  have hmem : f ∈ t.reverse := hsuffix.subset (by rw [ht]; simp)
  exact ⟨f, List.mem_reverse.1 hmem, hf⟩

/-! ## Writing -/

theorem mem_alphabet_of_mem_toText {m : MoveText} {c : Char} (h : c ∈ m.toText) :
    c ∈ alphabet := by
  simp only [toText, List.mem_append, List.mem_map, List.mem_flatMap, Option.mem_toList] at h
  rcases h with (((((⟨o, _, rfl⟩ | ⟨f, _, rfl⟩) | ⟨r, _, rfl⟩) | h) | h) | ⟨o, _, h⟩) | ⟨k, _, rfl⟩
  · exact o.letter_mem_alphabet
  · exact f.letter_mem_alphabet
  · exact r.digit_mem_alphabet
  · split at h
    · rw [List.mem_singleton.1 h]
      decide
    · simp at h
  · simp only [Square.name, List.mem_cons, List.not_mem_nil, or_false] at h
    rcases h with rfl | rfl
    · exact File.letter_mem_alphabet _
    · exact Rank.digit_mem_alphabet _
  · simp only [List.mem_cons, List.not_mem_nil, or_false] at h
    rcases h with rfl | rfl
    · decide
    · exact o.letter_mem_alphabet
  · exact k.char_mem_alphabet

theorem hyphen_not_mem_toText (m : MoveText) : '-' ∉ m.toText := by
  intro h
  simp only [toText, List.mem_append, List.mem_map, List.mem_flatMap, Option.mem_toList] at h
  rcases h with (((((⟨o, _, h⟩ | ⟨f, _, h⟩) | ⟨r, _, h⟩) | h) | h) | ⟨o, _, h⟩) | ⟨k, _, h⟩
  · exact o.letter_ne_hyphen h
  · exact f.letter_ne_hyphen h
  · exact r.digit_ne_hyphen h
  · split at h <;> simp at h
  · simp only [Square.name, List.mem_cons, List.not_mem_nil, or_false] at h
    rcases h with h | h
    · exact File.letter_ne_hyphen _ h.symm
    · exact Rank.digit_ne_hyphen _ h.symm
  · simp only [List.mem_cons, List.not_mem_nil, or_false] at h
    rcases h with h | h
    · exact absurd h (by decide)
    · exact o.letter_ne_hyphen h.symm
  · exact k.char_ne_hyphen h

end MoveText

namespace San

theorem mem_alphabet_of_wing? {t : Text} {w : Wing} (h : wing? t = some w) :
    '-' ∈ t ∧ ∀ c ∈ t, c ∈ alphabet := by
  unfold wing? at h
  split at h
  · exact ⟨by decide, fun _ => mem_alphabet_of_all (by decide)⟩
  · exact ⟨by decide, fun _ => mem_alphabet_of_all (by decide)⟩
  · exact ⟨by decide, fun _ => mem_alphabet_of_all (by decide)⟩
  · exact ⟨by decide, fun _ => mem_alphabet_of_all (by decide)⟩
  · simp at h

theorem mem_alphabet_of_readCastling? {t : Text} {s : San} (h : readCastling? t = some s) :
    '-' ∈ t ∧ ∀ c ∈ t, c ∈ alphabet := by
  unfold readCastling? at h
  simp only [Option.map_eq_some_iff] at h
  obtain ⟨w, hw, _⟩ := h
  obtain ⟨hdash, hall⟩ := mem_alphabet_of_wing? hw
  refine ⟨List.mem_reverse.1 ((takeOne_suffix _ _).subset (List.mem_reverse.1 hdash)), ?_⟩
  intro c hc
  rcases mem_takeOne CheckMark.ofChar? (List.mem_reverse.2 hc) with hc | hc
  · exact CheckMark.mem_alphabet_of_ofChar? hc
  · exact hall c (List.mem_reverse.2 hc)

theorem mem_alphabet_of_mem_toText {s : San} {c : Char} (h : c ∈ s.toText) : c ∈ alphabet := by
  cases s with
  | move m => exact MoveText.mem_alphabet_of_mem_toText h
  | castling wing mark =>
    simp only [toText, List.mem_append, List.mem_map, Option.mem_toList] at h
    rcases h with h | ⟨k, _, rfl⟩
    · cases wing with
      | kingside => exact mem_alphabet_of_all (by decide) h
      | queenside => exact mem_alphabet_of_all (by decide) h
    · exact k.char_mem_alphabet

/-- The two ways in which a text is a move text. -/
theorem read_of_canonical? {t s : Text} (h : canonical? t = some s) :
    (∃ san, readCastling? (if t.getLast? = some '\n' then t.dropLast else t) = some san ∧
      s = san.toText) ∨ ∃ m, MoveText.read? t = some m ∧ s = m.toText := by
  unfold canonical? at h
  simp only at h
  split at h
  · rename_i san hs
    exact Or.inl ⟨san, hs, (Option.some.inj h).symm⟩
  · obtain ⟨m, hm, rfl⟩ := Option.map_eq_some_iff.1 h
    exact Or.inr ⟨m, hm, rfl⟩

/-- **A move text consists of characters of the alphabet**, a line feed at its end apart. -/
theorem mem_alphabet_of_canonical? {t s : Text} (h : canonical? t = some s) {c : Char}
    (hc : c ∈ t) : c ∈ alphabet ∨ c = '\n' := by
  rcases read_of_canonical? h with ⟨san, hs, _⟩ | ⟨m, hm, _⟩
  · obtain ⟨_, hall⟩ := mem_alphabet_of_readCastling? hs
    split at hall
    · rename_i hlast
      obtain ⟨u, rfl⟩ := List.getLast?_eq_some_iff.1 hlast
      rcases List.mem_append.1 hc with hc | hc
      · exact Or.inl (hall c (by simpa using hc))
      · exact Or.inr (List.mem_singleton.1 hc)
    · exact Or.inl (hall c hc)
  · exact Or.inl (MoveText.mem_alphabet_of_read? hm hc)

/-- **A canonical spelling consists of characters of the alphabet.** -/
theorem mem_alphabet_of_mem_canonical {t s : Text} (h : canonical? t = some s) {c : Char}
    (hc : c ∈ s) : c ∈ alphabet := by
  rcases read_of_canonical? h with ⟨san, _, rfl⟩ | ⟨m, _, rfl⟩
  · exact mem_alphabet_of_mem_toText hc
  · exact MoveText.mem_alphabet_of_mem_toText hc

/-- A move text holds a hyphen or the letter of a file. -/
theorem exists_mark_of_canonical? {t s : Text} (h : canonical? t = some s) :
    ∃ c ∈ t, c = '-' ∨ (File.ofLetter? c).isSome := by
  rcases read_of_canonical? h with ⟨san, hs, _⟩ | ⟨m, hm, _⟩
  · obtain ⟨hdash, _⟩ := mem_alphabet_of_readCastling? hs
    refine ⟨'-', ?_, Or.inl rfl⟩
    split at hdash
    · exact (List.dropLast_sublist t).subset hdash
    · exact hdash
  · obtain ⟨c, hc, hf⟩ := MoveText.exists_fileLetter_of_read? hm
    exact ⟨c, hc, Or.inr hf⟩

/-! ## Respelling -/

theorem readCastling?_toText (wing : Wing) (mark : Option CheckMark) :
    readCastling? (toText (.castling wing mark)) = some (.castling wing mark) := by
  cases wing <;> rcases mark with _ | _ | _ <;> rfl

/-- Only castling is written with a hyphen. -/
theorem readCastling?_moveText (m : MoveText) : readCastling? m.toText = none := by
  cases hread : readCastling? m.toText with
  | none => rfl
  | some san => exact absurd (mem_alphabet_of_readCastling? hread).1 m.hyphen_not_mem_toText

/-- **A canonical spelling is its own canonical spelling.** -/
theorem canonical?_of_canonical? {t s : Text} (h : canonical? t = some s) :
    canonical? s = some s := by
  have hlast : s.getLast? ≠ some '\n' := by
    intro hlast
    have hmem := mem_alphabet_of_mem_canonical h (List.mem_of_getLast? hlast)
    exact absurd hmem (by decide)
  simp only [canonical?, if_neg hlast]
  rcases read_of_canonical? h with ⟨san, hread, rfl⟩ | ⟨m, _, rfl⟩
  · cases san with
    | castling wing mark => rw [readCastling?_toText]
    | move m => simp [readCastling?, Option.map_eq_some_iff] at hread
  · rw [readCastling?_moveText, MoveText.read?_toText]
    rfl

end San

end Scoresheet.Chess
