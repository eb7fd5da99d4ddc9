import Scoresheet.Proofs.Pgn.PrintedWords

/-!
# Printed movetexts are read back

Words, comments and variations follow one another with white space behind each. A comment holds
anything but a closing brace and may reach over several lines; a variation holds items itself.

`scanText_items` says that printed items give back their events in order on the main line and give
none inside a variation, and that nothing is left open behind them.
-/

namespace Scoresheet.Pgn

open Text

/-! ## Items -/

/-- White space, perhaps none. -/
structure Blank where
  text : Text
  isBlankText_text : isBlankText text = true

/-- White space that keeps two words apart. -/
structure Gap extends Blank where
  text_ne_nil : text ≠ []

/-- The items of a printed movetext. -/
inductive Items
  | nil
  | word (word : MoveWord) (gap : Gap) (rest : Items)
  | comment (text : Text) (isClosed : '}' ∉ text) (blank : Blank) (rest : Items)
  | variation (lead : Blank) (body : Items) (blank : Blank) (rest : Items)

namespace Items

def toText : Items → Text
  | nil => []
  | word w gap rest => w.toText ++ (gap.text ++ rest.toText)
  | comment text _ blank rest => '{' :: (text ++ '}' :: (blank.text ++ rest.toText))
  | variation lead body blank rest =>
    '(' :: (lead.text ++ (body.toText ++ ')' :: (blank.text ++ rest.toText)))

/-- What the items mean on the main line. -/
def events : Items → List Event
  | nil => []
  | word w _ rest => w.events ++ rest.events
  | comment text _ _ rest => .comment text :: rest.events
  | variation _ _ _ rest => .beginVariation :: rest.events

end Items

/-! ## Reading back -/

/-- A brace or a parenthesis without a word before it. -/
theorem scanText_bracket {s : Cursor} (hs : s.comment = none) {c : Char} (hc : c ∈ ['{', '(', ')'])
    (t : Text) :
    scanText s [] (c :: t) = (scanText (s.readBreak c).2 [] t).after (s.readBreak c).1 := by
  have hall : ∀ d ∈ ['{', '(', ')'], isWordBreak d = true ∧ d ≠ '\n' ∧ d ≠ ';' := by
    simp only [List.mem_cons, List.not_mem_nil, or_false]
    rintro d (rfl | rfl | rfl) <;> decide
  obtain ⟨hb, hn, hsemi⟩ := hall c hc
  have h0 : s.readWord ([] : Text).reverse = .ok ([], s) := s.readWord_nil
  exact scanText_break t hs hb hn hsemi h0

theorem startsQuietly_word (w : MoveWord) (t : Text) : StartsQuietly (w.toText ++ t) := by
  obtain ⟨c, cs, hc⟩ := List.exists_cons_of_ne_nil w.toText_ne_nil
  have hchar := MoveWord.isWordChar_of_mem_toText (w := w) (c := c) (by simp [hc])
  have hb : isBlank c = false := by
    have := hchar.1
    simp only [isWordBreak, Bool.or_eq_false_iff] at this
    exact this.1.1.1.1.1
  rw [hc]
  exact startsQuietly_cons _ hchar.2.1 hchar.2.2 hb

/-- Items open neither a tag pair nor a line that is passed over. -/
theorem startsQuietly_items (items : Items) {t : Text} (ht : StartsQuietly t) :
    StartsQuietly (items.toText ++ t) := by
  cases items with
  | nil => exact ht
  | word w gap rest =>
    rw [Items.toText, List.append_assoc]
    exact startsQuietly_word w _
  | comment text h blank rest => exact startsQuietly_cons _ (by decide) (by decide) (by decide)
  | variation lead body blank rest =>
    exact startsQuietly_cons _ (by decide) (by decide) (by decide)

/-- The characters of a printed word are collected until something ends it. -/
theorem scanText_wordChars {s : Cursor} (hs : s.comment = none) {w : Text}
    (hw : ∀ c ∈ w, MoveWord.IsWordChar c) (t : Text) :
    scanText s [] (w ++ t) = scanText s w.reverse t := by
  have hchar : ∀ c ∈ w, isWordBreak c = false := fun c hc => (hw c hc).1
  have hhead : w.head? ≠ some '[' := by
    intro h
    exact (hw '[' (List.mem_of_head? h)).2.1 rfl
  rw [scanText_append hs w [] t hchar (Or.inr hhead), List.append_nil]

/-- **A printed word is read back**, whatever stands behind the white space after it. -/
theorem scanText_word {s : Cursor} (hs : s.comment = none) (w : MoveWord) (gap : Gap) {t : Text}
    (ht : StartsQuietly t) :
    scanText s [] (w.toText ++ (gap.text ++ t))
      = (scanText s [] t).after (if s.readsWords then w.events else []) := by
  have hread : s.readWord w.toText.reverse.reverse
      = .ok (if s.readsWords then w.events else [], s) := by
    rw [List.reverse_reverse, w.readWord_toText]
  rw [scanText_wordChars hs fun c hc => MoveWord.isWordChar_of_mem_toText hc,
    scanText_gap t hs gap.isBlankText_text gap.text_ne_nil ht hread]

/-- **Printed items are read back**: at depth `0` they give their events, in a variation none. -/
theorem scanText_items (items : Items) : ∀ (depth : Nat) {t : Text}, StartsQuietly t →
    scanText ⟨depth, false, none⟩ [] (items.toText ++ t)
      = (scanText ⟨depth, false, none⟩ [] t).after (if depth = 0 then items.events else []) := by
  -- the depth is general, for the body of a variation lies one level deeper
  induction items with
  | nil =>
    intro depth t _
    rw [Items.toText, Items.events, ite_self]
    rfl
  | word w gap rest ih =>
    intro depth t ht
    have hreads : (Cursor.mk depth false none).readsWords = (depth == 0) := by
      simp [Cursor.readsWords]
    have hrest := startsQuietly_items rest ht
    rw [Items.toText, List.append_assoc, List.append_assoc, scanText_word rfl w gap hrest,
      ih depth ht, Movetext.after_after, hreads]
    by_cases hd : depth = 0
    · simp [hd, Items.events]
    · simp [hd]
  | comment text hclosed blank rest ih =>
    intro depth t ht
    have hrest := startsQuietly_items rest ht
    -- the brace opens a comment, which reaches to its own brace, and white space follows
    rw [Items.toText]
    simp only [List.cons_append, List.append_assoc]
    rw [scanText_bracket rfl (by decide)]
    show (scanText ⟨depth, false, some []⟩ [] _).after [] = _
    rw [scanText_comment depth false text [] _ hclosed, Movetext.after_nil,
      scanText_blank rfl blank.text _ blank.isBlankText_text hrest, ih depth ht,
      Movetext.after_after]
    by_cases hd : depth = 0
    · simp [hd, Items.events]
    · simp [hd]
  | variation lead body blank rest ihbody ih =>
    intro depth t ht
    have hrest := startsQuietly_items rest ht
    have hclose : StartsQuietly (')' :: (blank.text ++ (rest.toText ++ t))) :=
      startsQuietly_cons _ (by decide) (by decide) (by decide)
    rw [Items.toText]
    simp only [List.cons_append, List.append_assoc]
    rw [scanText_bracket rfl (by decide)]
    show (scanText ⟨depth + 1, false, none⟩ [] _).after _ = _
    -- the body is read below the main line and leaves nothing open before its parenthesis
    rw [scanText_blank rfl lead.text _ lead.isBlankText_text (startsQuietly_items body hclose),
      ihbody (depth + 1) hclose, if_neg (Nat.succ_ne_zero depth), Movetext.after_nil,
      scanText_bracket rfl (by decide)]
    show ((scanText ⟨depth, false, none⟩ [] _).after []).after _ = _
    rw [scanText_blank rfl blank.text _ blank.isBlankText_text hrest, ih depth ht,
      Movetext.after_nil, Movetext.after_after, Cursor.readBreak]
    by_cases hd : depth = 0
    · simp [hd, Items.events, Cursor.readsWords]
    · simp [hd, Cursor.readsWords]

end Scoresheet.Pgn
