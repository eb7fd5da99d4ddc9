import Scoresheet.Chess.Fen
import Scoresheet.Chess.Resolve
import Scoresheet.Proofs.Chess.Notation

/-!
# Spellings of a move

`San.Spelling` is the grammar of move texts: which parts a text may have, in which order, and how
each may be written. Reading decides that grammar (`San.read?_eq_some_iff`), so a text says one
thing at most, although the letter `b` names a file and a bishop, and a digit may belong to the
source or to the target.

The canonical spelling is one of the spellings of what a text says (`San.spelling_toText`). Hence a
text and its canonical spelling say the same, and name the same move in every position
(`San.canonical?_preserves_move`).
-/

namespace Scoresheet.Chess

open Text

/-! ## The grammar -/

/-- The ways to write the sign between the source and the target. -/
inductive SeparatorSpelling : Bool → Text → Prop
  | captures : SeparatorSpelling true ['x']
  | hyphen : SeparatorSpelling false ['-']
  | nothing : SeparatorSpelling false []

/-- The ways to write a promotion: the letter of the officer in either case, with or without an
equals sign before it. -/
inductive PromotionSpelling : Option Officer → Text → Prop
  | nothing : PromotionSpelling none []
  | bare {o : Officer} {c : Char} (h : c = o.letter ∨ c = o.letter.toLower) :
    PromotionSpelling (some o) [c]
  | equals {o : Officer} {c : Char} (h : c = o.letter ∨ c = o.letter.toLower) :
    PromotionSpelling (some o) ['=', c]

/-- The ways to write castling, a mark apart. -/
inductive WingSpelling : Wing → Text → Prop
  | letters (w : Wing) : WingSpelling w (San.wingText w)
  | kingsideZeros : WingSpelling .kingside ['0', '-', '0']
  | queensideZeros : WingSpelling .queenside ['0', '-', '0', '-', '0']

/-- A text says what a move text says: its parts stand in their order, each in one of the ways to
write it. -/
def MoveText.Spelling (m : MoveText) (t : Text) : Prop :=
  ∃ separator promotion, SeparatorSpelling m.captures separator ∧
    PromotionSpelling m.promotion promotion ∧
    t = m.officer.toList.map Officer.letter ++ m.sourceFile.toList.map File.letter
      ++ m.sourceRank.toList.map Rank.digit ++ separator ++ m.target.name ++ promotion
      ++ m.mark.toList.map CheckMark.char

/-- A text says that a move is made. -/
inductive San.Spelling : San → Text → Prop
  | castling {wing : Wing} {mark : Option CheckMark} {t : Text} (h : WingSpelling wing t) :
    San.Spelling (.castling wing mark) (t ++ mark.toList.map CheckMark.char)
  | move {m : MoveText} {t : Text} (h : m.Spelling t) : San.Spelling (.move m) t

/-! ## The classes of characters -/

theorem CheckMark.ofChar?_eq_some_iff (c : Char) (m : CheckMark) :
    CheckMark.ofChar? c = some m ↔ c = m.char := by
  constructor
  · intro h
    unfold CheckMark.ofChar? at h
    split at h <;> cases h <;> rfl
  · rintro rfl
    exact ofChar?_char m

theorem Officer.ofLetter?_eq_some_iff (c : Char) (o : Officer) :
    Officer.ofLetter? c = some o ↔ c = o.letter := by
  constructor
  · intro h
    unfold Officer.ofLetter? at h
    split at h <;> cases h <;> rfl
  · rintro rfl
    exact ofLetter?_letter o

theorem Officer.ofEitherLetter?_eq_some_iff (c : Char) (o : Officer) :
    Officer.ofEitherLetter? c = some o ↔ c = o.letter ∨ c = o.letter.toLower := by
  constructor
  · intro h
    unfold Officer.ofEitherLetter? at h
    split at h
    case h_6 => exact Or.inl ((Officer.ofLetter?_eq_some_iff c o).1 h)
    all_goals exact Or.inr (by cases h; rfl)
  · rintro (rfl | rfl) <;> cases o <;> rfl

theorem File.ofLetter?_eq_some_iff (c : Char) (f : File) :
    File.ofLetter? c = some f ↔ c = f.letter :=
  ⟨File.eq_letter_of_ofLetter?, fun h => h ▸ File.ofLetter?_letter f⟩

theorem Rank.ofDigit?_eq_some_iff (c : Char) (r : Rank) :
    Rank.ofDigit? c = some r ↔ c = r.digit :=
  ⟨Rank.eq_digit_of_ofDigit?, fun h => h ▸ Rank.ofDigit?_digit r⟩

/-- The sign that a separator is written with, if it is written. -/
def separatorSign (captures : Bool) : Char := if captures then 'x' else '-'

theorem separator?_eq_some_iff (c : Char) (b : Bool) :
    MoveText.separator? c = some b ↔ c = separatorSign b := by
  constructor
  · intro h
    unfold MoveText.separator? at h
    split at h <;> cases h <;> rfl
  · rintro rfl
    cases b <;> rfl

theorem separatorSpelling_iff {b : Bool} {t : Text} :
    SeparatorSpelling b t ↔
      ∃ sign : Option Bool, sign.getD false = b ∧ t = sign.toList.map separatorSign := by
  constructor
  · rintro (_ | _ | _)
    · exact ⟨some true, rfl, rfl⟩
    · exact ⟨some false, rfl, rfl⟩
    · exact ⟨none, rfl, rfl⟩
  · rintro ⟨_ | _ | _, rfl, rfl⟩
    · exact .nothing
    · exact .hyphen
    · exact .captures

/-! ## Taking a character -/

section TakeOne

variable {α : Type} {read : Char → Option α} {write : α → Char}

/-- A character that is taken was there, before what is left. -/
theorem append_takeOne (hread : ∀ c a, read c = some a ↔ c = write a) (t : Text) :
    (takeOne read t).1.toList.map write ++ (takeOne read t).2 = t := by
  cases t with
  | nil => rfl
  | cons c t =>
    cases hc : read c with
    | none => simp [takeOne, hc]
    | some a =>
      rw [takeOne, hc, (hread c a).1 hc]
      rfl

/-- A character is taken if it is there, and otherwise nothing is, as long as the text does not go
on with a character of the class. -/
theorem takeOne_append (hread : ∀ c a, read c = some a ↔ c = write a) (o : Option α) (rest : Text)
    (hrest : ∀ c ∈ rest.head?, read c = none) :
    takeOne read (o.toList.map write ++ rest) = (o, rest) := by
  cases o with
  | some a => simp [takeOne, (hread _ a).2 rfl]
  | none =>
    cases rest with
    | nil => rfl
    | cons c rest => simp [takeOne, hrest c rfl]

end TakeOne

/-! ## Reading from the end -/

/-- What is taken as a promotion, from its letter back to its equals sign, is one. -/
theorem promotionSpelling_takeOne {p : Option Officer} {t v : Text}
    (h : takeOne Officer.ofEitherLetter? t = (p, v)) :
    ∃ promotion, PromotionSpelling p promotion ∧
      t = promotion.reverse ++ MoveText.dropEquals p v := by
  cases t with
  | nil =>
    obtain ⟨rfl, rfl⟩ := Prod.mk.inj h
    exact ⟨[], .nothing, rfl⟩
  | cons c t =>
    rw [takeOne] at h
    cases hc : Officer.ofEitherLetter? c with
    | none =>
      rw [hc] at h
      obtain ⟨rfl, rfl⟩ := Prod.mk.inj h
      exact ⟨[], .nothing, rfl⟩
    | some o =>
      rw [hc] at h
      obtain ⟨rfl, rfl⟩ := Prod.mk.inj h
      have hletter := (Officer.ofEitherLetter?_eq_some_iff c o).1 hc
      unfold MoveText.dropEquals
      split
      · exact ⟨_, .equals hletter, rfl⟩
      · exact ⟨_, .bare hletter, rfl⟩

theorem takeOne_of_promotionSpelling {p : Option Officer} {promotion : Text}
    (h : PromotionSpelling p promotion) (r : Rank) (u : Text) :
    ∃ v, takeOne Officer.ofEitherLetter? (promotion.reverse ++ r.digit :: u) = (p, v) ∧
      MoveText.dropEquals p v = r.digit :: u := by
  have hdigit : r.digit ≠ '=' := by revert r; decide
  cases h with
  | nothing =>
    refine ⟨r.digit :: u, ?_, rfl⟩
    simp [takeOne, MoveText.ofEitherLetter?_digit]
  | bare h =>
    refine ⟨r.digit :: u, ?_, ?_⟩
    · simp [takeOne, (Officer.ofEitherLetter?_eq_some_iff _ _).2 h]
    · unfold MoveText.dropEquals
      split
      · rename_i heq
        exact absurd (List.cons.inj heq).1 hdigit
      · rfl
  | equals h =>
    refine ⟨'=' :: r.digit :: u, ?_, rfl⟩
    simp [takeOne, (Officer.ofEitherLetter?_eq_some_iff _ _).2 h]

/-- Only the letter of a promotion stands between the rank of the target and a mark. -/
theorem ofChar?_head_promotion {p : Option Officer} {promotion : Text}
    (h : PromotionSpelling p promotion) (r : Rank) (u : Text) :
    ∀ c ∈ (promotion.reverse ++ r.digit :: u).head?, CheckMark.ofChar? c = none := by
  cases h with
  | nothing => simp [MoveText.ofChar?_digit]
  | @bare o c h | @equals o c h =>
    have hc : CheckMark.ofChar? c = none := by
      rcases h with rfl | rfl <;> cases o <;> rfl
    simp [hc]

theorem reverse_toList_map {α : Type} (o : Option α) (write : α → Char) :
    (o.toList.map write).reverse = o.toList.map write := by
  cases o <;> rfl

namespace MoveText

/-- Reads what stands behind the target of a move. -/
def readEnding (t : Text) : Option CheckMark × Option Officer × Text :=
  let (mark, t) := takeOne CheckMark.ofChar? t
  let (promotion, t) := takeOne Officer.ofEitherLetter? t
  (mark, promotion, dropEquals promotion t)

/-- Reads what stands before the target of a move. -/
def readSource (t : Text) : Option Bool × Option Rank × Option File × Option Officer × Text :=
  let (separator, t) := takeOne separator? t
  let (sourceRank, t) := takeOne Rank.ofDigit? t
  let (sourceFile, t) := takeOne File.ofLetter? t
  let (officer, t) := takeOne Officer.ofLetter? t
  (separator, sourceRank, sourceFile, officer, t)

variable {mark : Option CheckMark} {promotion : Option Officer} {sign : Option Bool}
  {sourceRank : Option Rank} {sourceFile : Option File} {officer : Option Officer}

theorem readEnding_eq_iff {t u : Text} {r : Rank} :
    readEnding t = (mark, promotion, r.digit :: u) ↔ ∃ p, PromotionSpelling promotion p ∧
      t = mark.toList.map CheckMark.char ++ (p.reverse ++ r.digit :: u) := by
  constructor
  · intro h
    obtain ⟨hmark, hpromotion, hrest⟩ : _ ∧ _ ∧ _ := by simpa [readEnding] using h
    obtain ⟨p, hp, hsplit⟩ := promotionSpelling_takeOne
      (t := (takeOne CheckMark.ofChar? t).2) (Prod.ext hpromotion rfl)
    refine ⟨p, hp, ?_⟩
    rw [← append_takeOne CheckMark.ofChar?_eq_some_iff t, hmark, hsplit, ← hrest, hpromotion]
  · rintro ⟨p, hp, rfl⟩
    obtain ⟨v, hv, hrest⟩ := takeOne_of_promotionSpelling hp r u
    simp only [readEnding, takeOne_append CheckMark.ofChar?_eq_some_iff mark _
      (ofChar?_head_promotion hp r u), hv, hrest]

/-- The parts of the source stand apart: each class is read in its place. -/
theorem readSource_eq_iff {u : Text} :
    readSource u = (sign, sourceRank, sourceFile, officer, []) ↔
      u = sign.toList.map separatorSign ++ (sourceRank.toList.map Rank.digit ++
        (sourceFile.toList.map File.letter ++ officer.toList.map Officer.letter)) := by
  constructor
  · intro h
    simp only [readSource, Prod.mk.injEq] at h
    obtain ⟨rfl, rfl, rfl, rfl, hend⟩ := h
    have hofficer := append_takeOne Officer.ofLetter?_eq_some_iff
      (takeOne File.ofLetter? (takeOne Rank.ofDigit? (takeOne separator? u).2).2).2
    rw [hend, List.append_nil] at hofficer
    rw [hofficer, append_takeOne File.ofLetter?_eq_some_iff,
      append_takeOne Rank.ofDigit?_eq_some_iff, append_takeOne separator?_eq_some_iff]
  · rintro rfl
    have hofficer := takeOne_append Officer.ofLetter?_eq_some_iff officer [] (by simp)
    rw [List.append_nil] at hofficer
    have hfile := takeOne_append File.ofLetter?_eq_some_iff sourceFile
      (officer.toList.map Officer.letter) (by cases officer <;> simp [ofLetter?_officer])
    have hrank := takeOne_append Rank.ofDigit?_eq_some_iff sourceRank
      (sourceFile.toList.map File.letter ++ officer.toList.map Officer.letter)
      (by cases sourceFile <;> cases officer <;> simp [ofDigit?_fileLetter, ofDigit?_officer])
    have hsign := takeOne_append separator?_eq_some_iff sign
      (sourceRank.toList.map Rank.digit ++
        (sourceFile.toList.map File.letter ++ officer.toList.map Officer.letter))
      (by cases sourceRank <;> cases sourceFile <;> cases officer <;>
        simp [separator?_digit, separator?_fileLetter, separator?_officer])
    simp only [readSource, hsign, hrank, hfile, hofficer]

theorem readReversed?_eq_some_iff {t : Text} {m : MoveText} :
    readReversed? t = some m ↔ ∃ sign u, sign.getD false = m.captures ∧
      readEnding t = (m.mark, m.promotion, m.target.rank.digit :: m.target.file.letter :: u) ∧
      readSource u = (sign, m.sourceRank, m.sourceFile, m.officer, []) := by
  constructor
  · intro h
    unfold readReversed? at h
    simp only at h
    split at h
    · rename_i r f u hrest
      split at h
      · rename_i rank file hrank hfile
        simp only [Option.ite_none_right_eq_some, List.isEmpty_iff, Option.some.injEq] at h
        obtain ⟨hempty, rfl⟩ := h
        have hending : (readEnding t).2.2 = r :: f :: u := hrest
        rw [Rank.eq_digit_of_ofDigit? hrank, File.eq_letter_of_ofLetter? hfile] at hending
        refine ⟨_, u, rfl, Prod.ext rfl (Prod.ext rfl hending), ?_⟩
        rw [← hempty]
        rfl
      · cases h
    · cases h
  · rintro ⟨sign, u, hcaptures, hending, hsource⟩
    simp only [readEnding, readSource, Prod.mk.injEq] at hending hsource
    obtain ⟨hmark, hpromotion, hrest⟩ := hending
    obtain ⟨hsign, hrank, hfile, hofficer, hend⟩ := hsource
    unfold readReversed?
    simp only
    split
    · rename_i r f v heq
      have hparts : r :: f :: v = m.target.rank.digit :: m.target.file.letter :: u :=
        heq.symm.trans hrest
      simp only [List.cons.injEq] at hparts
      obtain ⟨rfl, rfl, rfl⟩ := hparts
      simp [hmark, hpromotion, hsign, hcaptures, hrank, hfile, hofficer, hend]
    · rename_i hshort
      exact absurd hrest (hshort _ _ _)

/-- **Reading a move text decides its grammar.** -/
theorem read?_eq_some_iff {t : Text} {m : MoveText} : read? t = some m ↔ m.Spelling t := by
  rw [read?, readReversed?_eq_some_iff]
  simp only [readEnding_eq_iff, readSource_eq_iff]
  constructor
  · rintro ⟨sign, u, hcaptures, ⟨p, hp, ht⟩, rfl⟩
    refine ⟨_, p, separatorSpelling_iff.2 ⟨sign, hcaptures, rfl⟩, hp, ?_⟩
    rw [← List.reverse_reverse t, ht]
    simp [Square.name, reverse_toList_map]
  · rintro ⟨separator, p, hseparator, hp, rfl⟩
    obtain ⟨sign, hcaptures, rfl⟩ := separatorSpelling_iff.1 hseparator
    refine ⟨sign, _, hcaptures, ⟨p, hp, ?_⟩, rfl⟩
    simp [Square.name, reverse_toList_map]

/-- The canonical spelling of a move text is a spelling of it. -/
theorem spelling_toText (m : MoveText) : m.Spelling m.toText :=
  read?_eq_some_iff.1 m.read?_toText

end MoveText

namespace San

theorem wing?_eq_some_iff {t : Text} {wing : Wing} : wing? t = some wing ↔ WingSpelling wing t := by
  constructor
  · intro h
    unfold wing? at h
    split at h <;> cases h
    · exact .letters .kingside
    · exact .kingsideZeros
    · exact .letters .queenside
    · exact .queensideZeros
  · rintro (wing | _ | _)
    · cases wing <;> rfl
    · rfl
    · rfl

theorem spelling_of_readCastling? {t : Text} {san : San} (h : readCastling? t = some san) :
    san.Spelling t := by
  simp only [readCastling?, Option.map_eq_some_iff] at h
  obtain ⟨wing, hwing, rfl⟩ := h
  have ht := congrArg List.reverse (append_takeOne CheckMark.ofChar?_eq_some_iff t.reverse)
  rw [List.reverse_append, List.reverse_reverse, reverse_toList_map] at ht
  have hspelling : San.Spelling (.castling wing (takeOne CheckMark.ofChar? t.reverse).1) _ :=
    .castling (wing?_eq_some_iff.1 hwing)
  rwa [ht] at hspelling

theorem readCastling?_of_spelling {wing : Wing} {u : Text} (h : WingSpelling wing u)
    (mark : Option CheckMark) :
    readCastling? (u ++ mark.toList.map CheckMark.char) = some (.castling wing mark) := by
  cases h with
  | letters => cases wing <;> rcases mark with _ | _ | _ <;> rfl
  | kingsideZeros => rcases mark with _ | _ | _ <;> rfl
  | queensideZeros => rcases mark with _ | _ | _ <;> rfl

/-- Castling is not written like any other move. -/
theorem read?_eq_none_of_spelling {wing : Wing} {u : Text} (h : WingSpelling wing u)
    (mark : Option CheckMark) : MoveText.read? (u ++ mark.toList.map CheckMark.char) = none := by
  cases h with
  | letters => cases wing <;> rcases mark with _ | _ | _ <;> rfl
  | kingsideZeros => rcases mark with _ | _ | _ <;> rfl
  | queensideZeros => rcases mark with _ | _ | _ <;> rfl

/-- **Reading decides the grammar of move texts.** -/
theorem read?_eq_some_iff {t : Text} {san : San} : read? t = some san ↔ san.Spelling t := by
  constructor
  · intro h
    unfold read? at h
    split at h
    · rename_i s hcastling
      cases h
      exact spelling_of_readCastling? hcastling
    · obtain ⟨m, hm, rfl⟩ := Option.map_eq_some_iff.1 h
      exact .move (MoveText.read?_eq_some_iff.1 hm)
  · rintro (⟨h⟩ | @⟨m, _, h⟩)
    · rw [read?, readCastling?_of_spelling h]
    · have hm := MoveText.read?_eq_some_iff.2 h
      cases hcastling : readCastling? t with
      | none => rw [read?, hcastling, hm]; rfl
      | some s =>
        cases spelling_of_readCastling? hcastling with
        | castling h' => rw [read?_eq_none_of_spelling h'] at hm; cases hm
        | move h' => simp [readCastling?] at hcastling

/-- A text says one thing at most. -/
theorem Spelling.unique {t : Text} {san san' : San} (h : san.Spelling t) (h' : san'.Spelling t) :
    san = san' :=
  Option.some.inj ((read?_eq_some_iff.2 h).symm.trans (read?_eq_some_iff.2 h'))

/-- The canonical spelling is one of the spellings. -/
theorem spelling_toText (san : San) : san.Spelling san.toText := by
  cases san with
  | castling wing mark => exact .castling (.letters wing)
  | move m => exact .move m.spelling_toText

/-- Respelling a text writes what the text says, a line feed at its end apart. -/
theorem canonical?_eq_map_read? {t : Text} (ht : t.getLast? ≠ some '\n') :
    canonical? t = (read? t).map toText := by
  rw [canonical?, if_neg ht, read?]
  cases readCastling? t with
  | some s => rfl
  | none => simp [Function.comp_def, toText]

/-- **A respelled text says the same.** -/
theorem exists_spelling_of_canonical? {t s : Text} (ht : ∀ c ∈ t, isBlank c = false)
    (h : canonical? t = some s) : ∃ san : San, san.Spelling t ∧ san.Spelling s := by
  have hlast : t.getLast? ≠ some '\n' := by
    intro hlast
    exact absurd (ht _ (List.mem_of_getLast? hlast)) (by decide)
  rw [canonical?_eq_map_read? hlast, Option.map_eq_some_iff] at h
  obtain ⟨san, hsan, rfl⟩ := h
  exact ⟨san, read?_eq_some_iff.1 hsan, san.spelling_toText⟩

end San

theorem Position.resolve?_of_spelling {t : Text} {san : San} (h : san.Spelling t) (p : Position) :
    p.resolve? t = p.resolveSan? san := by
  rw [resolve?, San.read?_eq_some_iff.2 h]

/-- **Respelling preserves the move.** A text without blanks that has a canonical spelling says one
thing. The canonical spelling says the same and is its own canonical spelling, so in every position
the two texts name the same move, or neither names one. -/
theorem San.canonical?_preserves_move {t s : Text} (ht : ∀ c ∈ t, isBlank c = false)
    (h : San.canonical? t = some s) :
    San.canonical? s = some s ∧
    (∀ p : Position, p.resolve? t = p.resolve? s) ∧
    ∃ san : San, (∀ san' : San, san'.Spelling t ↔ san' = san) ∧
      (∀ san' : San, san'.Spelling s ↔ san' = san) ∧ ∀ p : Position,
        p.resolve? t = p.resolveSan? san := by
  obtain ⟨san, hsan, hsan'⟩ := San.exists_spelling_of_canonical? ht h
  refine ⟨San.canonical?_of_canonical? h, fun p => ?_, san, fun x => ?_, fun x => ?_, fun p => ?_⟩
  · rw [p.resolve?_of_spelling hsan, p.resolve?_of_spelling hsan']
  · exact ⟨fun hx => hx.unique hsan, fun hx => hx ▸ hsan⟩
  · exact ⟨fun hx => hx.unique hsan', fun hx => hx ▸ hsan'⟩
  · exact p.resolve?_of_spelling hsan

/-- A pawn that becomes a bishop, written with a hyphen and the small letter. -/
theorem San.canonical?_preserves_move_promotion :
    (∀ c ∈ "e7-e8b+".toList, isBlank c = false) ∧
    San.canonical? "e7-e8b+".toList = some "e7e8=B+".toList ∧
    San.canonical? "e7e8=B+".toList = some "e7e8=B+".toList ∧
    (∀ p : Position, p.resolve? "e7-e8b+".toList = p.resolve? "e7e8=B+".toList) ∧
    (Position.ofFen "8/4P3/8/8/k7/8/8/7K w - - 0 1".toList).toOption.bind
      (·.resolve? "e7-e8b+".toList) = some (Move.step ⟨4, 6⟩ ⟨4, 7⟩ (some .bishop)) := by
  have hall : "e7-e8b+".toList.all (isBlank · == false) = true := by decide
  have hvisible : ∀ c ∈ "e7-e8b+".toList, isBlank c = false :=
    fun c hc => eq_of_beq (List.all_eq_true.1 hall c hc)
  have hread : San.canonical? "e7-e8b+".toList = some "e7e8=B+".toList := by decide +kernel
  obtain ⟨hagain, hsame, _⟩ := San.canonical?_preserves_move hvisible hread
  exact ⟨hvisible, hread, hagain, hsame, by decide +kernel⟩

end Scoresheet.Chess
