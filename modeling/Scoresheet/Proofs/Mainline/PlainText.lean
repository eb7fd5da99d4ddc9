import Scoresheet.Proofs.Mainline.CleanText
import Scoresheet.Proofs.Pgn.PrintedGame
import Scoresheet.Proofs.Text.Joining
import Scoresheet.Proofs.Text.Numerals

/-!
# Plain movetexts are read back

A plain movetext is what the library itself writes: numbered moves with comments in braces between
them, one space apart, perhaps with the marker of a result behind. `scanText_plainWords` says that
reading undoes the writing. It rests on the canonical spelling of the moves, which no reader takes
for anything else, and on comments that hold no closing brace; their other characters do not matter,
not even brackets, percent signs, semicolons and line feeds.
-/

namespace Scoresheet

open Text Pgn Chess

/-! ## Items and their words -/

/-- An item of a plain movetext. -/
inductive PlainItem
  | move (san : Text)
  /-- A comment, given by what stands between its braces. -/
  | comment (body : Text)
  deriving DecidableEq, Repr

namespace PlainItem

/-- The word for an item that stands after `ply` moves. -/
def word (ply : Nat) : PlainItem → Text
  | move san => Mainline.moveWord ply san
  | comment body => '{' :: (body ++ ['}'])

/-- The number of moves that an item adds. -/
def plies : PlainItem → Nat
  | move _ => 1
  | comment _ => 0

def event : PlainItem → Event
  | move san => .san san
  | comment body => .comment body

/-- The item can be told from what stands around it. -/
def IsSound : PlainItem → Prop
  | move san => San.canonical? san = some san
  | comment body => '}' ∉ body

end PlainItem

/-- The words of items, the first of them after `ply` moves. -/
def plainWords (ply : Nat) : List PlainItem → List Text
  | [] => []
  | item :: items => item.word ply :: plainWords (ply + item.plies) items

theorem plainWords_move (ply : Nat) (sans : List Text) :
    plainWords ply (sans.map .move) = Mainline.moveWords ply sans := by
  induction sans generalizing ply with
  | nil => rfl
  | cons san sans ih =>
    rw [List.map_cons, plainWords, Mainline.moveWords, PlainItem.word, PlainItem.plies, ih]

theorem plainWords_ne_nil {items : List PlainItem} (h : items ≠ []) (ply : Nat) :
    plainWords ply items ≠ [] := by
  obtain ⟨item, items, rfl⟩ := List.exists_cons_of_ne_nil h
  exact List.cons_ne_nil _ _

/-! ## Numbers of moves -/

/-- The number before a move of White's. -/
def plainNumber (ply : Nat) : MoveNumber := ⟨decimal (ply / 2 + 1), 1, isNumeral_decimal _⟩

theorem plainNumber_toText (ply : Nat) :
    (plainNumber ply).toText = decimal (ply / 2 + 1) ++ ['.'] := rfl

/-- The one space that keeps words apart. -/
def oneSpace : Gap := ⟨⟨[' '], by decide⟩, by simp⟩

/-- A move with its number, or a move alone. -/
theorem moveWord_eq (ply : Nat) (san : Text) :
    Mainline.moveWord ply san =
      if ply % 2 = 0 then (plainNumber ply).toText ++ (oneSpace.text ++ san) else san := by
  unfold Mainline.moveWord
  split
  · rw [plainNumber_toText, List.append_assoc]
    rfl
  · rfl

/-! ## Words are tight -/

namespace MoveWord

theorem not_isBlank_of_isWordChar {c : Char} (h : MoveWord.IsWordChar c) : isBlank c = false := by
  have hbreak := h.1
  simp only [isWordBreak, Bool.or_eq_false_iff] at hbreak
  exact hbreak.1.1.1.1.1

theorem isTight_toText (w : MoveWord) : IsTight w.toText :=
  isTight_of_visible w.toText_ne_nil fun _ hc =>
    not_isBlank_of_isWordChar (MoveWord.isWordChar_of_mem_toText hc)

end MoveWord

namespace PlainItem

/-- The move of an item as a word of a movetext. -/
def moveOf {san : Text} (h : (move san).IsSound) : MoveWord := .move none ⟨san, h⟩ none

theorem moveOf_toText {san : Text} (h : (move san).IsSound) : (moveOf h).toText = san := by
  unfold moveOf MoveWord.toText
  simp

theorem isTight_word {item : PlainItem} (h : item.IsSound) (ply : Nat) :
    IsTight (item.word ply) := by
  cases item with
  | move san =>
    have hsan : IsTight san := by
      rw [← moveOf_toText h]
      exact MoveWord.isTight_toText _
    rw [word, moveWord_eq]
    split
    · exact (MoveWord.isTight_toText (.moveNumber (plainNumber ply))).append hsan _
    · exact hsan
  | comment body =>
    exact ⟨⟨'{', body ++ ['}'], rfl, by decide⟩, ⟨'{' :: body, '}', rfl, by decide⟩⟩

theorem startsQuietly_word {item : PlainItem} (h : item.IsSound) (ply : Nat) (t : Text) :
    StartsQuietly (item.word ply ++ t) := by
  cases item with
  | move san =>
    rw [word, moveWord_eq]
    split
    · rw [List.append_assoc]
      exact Pgn.startsQuietly_word (.moveNumber (plainNumber ply)) _
    · rw [← moveOf_toText h]
      exact Pgn.startsQuietly_word (moveOf h) t
  | comment body => exact startsQuietly_cons _ (by decide) (by decide) (by decide)

end PlainItem

theorem isTight_of_mem_plainWords {items : List PlainItem} (h : ∀ item ∈ items, item.IsSound)
    {ply : Nat} {w : Text} (hw : w ∈ plainWords ply items) : IsTight w := by
  induction items generalizing ply with
  | nil => simp [plainWords] at hw
  | cons item items ih =>
    obtain ⟨hitem, hitems⟩ := List.forall_mem_cons.1 h
    rcases List.mem_cons.1 hw with rfl | hw
    · exact item.isTight_word hitem ply
    · exact ih hitems hw

/-! ## Reading back -/

/-- A text that may stand behind a word: it ends there, or goes on after a space. -/
def EndsWord (t : Text) : Prop := t = [] ∨ ∃ u, t = ' ' :: u ∧ StartsQuietly u

theorem endsWord_space {t : Text} (h : StartsQuietly t) : EndsWord (' ' :: t) :=
  Or.inr ⟨t, rfl, h⟩

theorem scanText_space {s : Cursor} (hs : s.comment = none) {t : Text} (h : StartsQuietly t) :
    scanText s [] (' ' :: t) = scanText s [] t :=
  scanText_blank hs [' '] t (by decide) h

/-- A word before which nothing is open is read at the end of a text as inside one. -/
theorem scanText_wordAtEnd (w : MoveWord) {t : Text} (ht : EndsWord t) :
    scanText .start [] (w.toText ++ t) = (scanText .start [] t).after w.events := by
  rcases ht with rfl | ⟨u, rfl, hu⟩
  · have hread : Cursor.start.readWord w.toText.reverse.reverse = .ok (w.events, .start) := by
      rw [List.reverse_reverse, w.readWord_toText]
      rfl
    rw [scanText_wordChars rfl fun c hc => MoveWord.isWordChar_of_mem_toText hc,
      scanText_nil hread rfl, scanText_nil (Cursor.readWord_nil _) rfl]
    simp [Movetext.after]
  · have hgap := scanText_word (s := .start) rfl w oneSpace hu
    rw [scanText_space rfl hu]
    exact hgap

/-- **An item is read back**, whatever follows it. -/
theorem scanText_plainItem {item : PlainItem} (h : item.IsSound) (ply : Nat) {t : Text}
    (ht : EndsWord t) :
    scanText .start [] (item.word ply ++ t) = (scanText .start [] t).after [item.event] := by
  cases item with
  | move san =>
    have hmove : scanText .start [] (san ++ t) = (scanText .start [] t).after [.san san] := by
      have hword := scanText_wordAtEnd (PlainItem.moveOf h) ht
      rw [PlainItem.moveOf_toText] at hword
      exact hword
    rw [PlainItem.word, moveWord_eq]
    split
    · have hquiet : StartsQuietly (san ++ t) := by
        rw [← PlainItem.moveOf_toText h]
        exact startsQuietly_word _ t
      -- the number is a word without events, and the move follows behind a space
      rw [List.append_assoc, List.append_assoc]
      show scanText .start [] ((MoveWord.moveNumber (plainNumber ply)).toText ++ _) = _
      rw [scanText_word rfl (.moveNumber (plainNumber ply)) oneSpace hquiet, hmove,
        Movetext.after_after]
      rfl
    · exact hmove
  | comment body =>
    have hword : (PlainItem.comment body).word ply ++ t = '{' :: (body ++ '}' :: t) := by
      simp [PlainItem.word]
    rw [hword, scanText_bracket rfl (by decide)]
    show (scanText ⟨0, false, some []⟩ [] _).after [] = _
    rw [scanText_comment 0 false body [] t h, Movetext.after_nil]
    rfl

theorem startsQuietly_plainWords {items : List PlainItem} (h : ∀ item ∈ items, item.IsSound)
    (hne : items ≠ []) (ply : Nat) (t : Text) :
    StartsQuietly (join [' '] (plainWords ply items) ++ t) := by
  obtain ⟨item, items, rfl⟩ := List.exists_cons_of_ne_nil hne
  have hitem := h item List.mem_cons_self
  rw [plainWords]
  by_cases hwords : plainWords (ply + item.plies) items = []
  · rw [hwords, join_singleton]
    exact item.startsQuietly_word hitem ply t
  · rw [join_cons hwords, List.append_assoc]
    exact item.startsQuietly_word hitem ply _

/-- **Plain movetexts are read back**: the items give their events in order. -/
theorem scanText_plainWords {items : List PlainItem} (h : ∀ item ∈ items, item.IsSound)
    (hne : items ≠ []) (ply : Nat) {t : Text} (ht : EndsWord t) :
    scanText .start [] (join [' '] (plainWords ply items) ++ t)
      = (scanText .start [] t).after (items.map PlainItem.event) := by
  -- on the items: what follows the first is either `t` or a space and the other items
  induction items generalizing ply with
  | nil => exact absurd rfl hne
  | cons item items ih =>
    obtain ⟨hitem, hitems⟩ := List.forall_mem_cons.1 h
    rw [plainWords]
    by_cases hnil : items = []
    · subst hnil
      rw [plainWords, join_singleton]
      exact scanText_plainItem hitem ply ht
    · have hquiet := startsQuietly_plainWords hitems hnil (ply + item.plies) t
      rw [join_cons (plainWords_ne_nil hnil _), List.append_assoc, List.append_assoc,
        List.singleton_append, scanText_plainItem hitem ply (endsWord_space hquiet),
        scanText_space rfl hquiet, ih hitems hnil, Movetext.after_after]
      rfl

/-! ## Main lines -/

namespace PlainItem

/-- The move of an item. -/
def san? : PlainItem → Option Text
  | move san => some san
  | comment _ => none

end PlainItem

theorem filterMap_san?_event (items : List PlainItem) :
    (items.map PlainItem.event).filterMap Transcript.san? = items.filterMap PlainItem.san? := by
  rw [List.filterMap_map]
  refine List.filterMap_congr fun item _ => ?_
  cases item <;> rfl

theorem filterMap_outcome?_event (items : List PlainItem) :
    (items.map PlainItem.event).filterMap Transcript.outcome? = [] := by
  rw [List.filterMap_map, List.filterMap_eq_nil_iff]
  intro item _
  cases item <;> rfl

/-- **The main line of a plain movetext** is the moves that were written. -/
theorem ofMovetext_plainWords {items : List PlainItem} (h : ∀ item ∈ items, item.IsSound) :
    Mainline.ofMovetext (join [' '] (plainWords 0 items))
      = .ok ⟨items.filterMap PlainItem.san?, none, false⟩ := by
  by_cases hne : items = []
  · subst hne
    exact ofMovetext_of_isBlankText rfl
  · have htight : IsTight (join [' '] (plainWords 0 items)) :=
      isTight_join (plainWords_ne_nil hne 0) fun w hw => isTight_of_mem_plainWords h hw
    have hquiet := startsQuietly_plainWords h hne 0 []
    have hscan := scanText_plainWords h hne 0 (t := []) (Or.inl rfl)
    rw [List.append_nil] at hquiet hscan
    rw [scanText_nil (Cursor.readWord_nil _) rfl] at hscan
    rw [ofMovetext_of_scanText hquiet htight.isBlankText (by rw [hscan]; rfl), List.append_nil,
      filterMap_san?_event, filterMap_outcome?_event]
    rfl

end Scoresheet
