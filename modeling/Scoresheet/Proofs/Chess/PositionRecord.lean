import Scoresheet.Proofs.Chess.BoardField
import Scoresheet.Proofs.Chess.LegalPlay
import Scoresheet.Proofs.Text.Numerals

/-!
# Position records that were written

The fields of a position record are words, so they are found again, and each is read back as what
was written there. The first four name the position up to its counters: they determine its hash
(`Position.hash_eq_of_epd`), and a position whose castling rights are clean keeps them when its
record is read and written anew, with its counters (`Position.fenEpd_fen`) or without
(`Position.fenEpd_epd`).
-/

namespace Scoresheet.Chess

open Text

/-! ## Fields -/

theorem Color.ofText?_letter (c : Color) : Color.ofText? [c.letter] = some c := by
  cases c <;> rfl

theorem Color.isWord_letter (c : Color) : IsWord [c.letter] := by
  cases c <;> exact isWord_of_all rfl (by decide)

theorem ofName?_squareText (s : Option Square) : Square.ofName? (squareText s) = s := by
  cases s with
  | none => rfl
  | some s => exact Square.ofName?_name s

theorem isWord_squareText (s : Option Square) : IsWord (squareText s) := by
  cases s with
  | none => exact isWord_of_all rfl (by decide)
  | some s =>
    have hfile : ∀ f : File, isBlank f.letter = false := by decide
    have hrank : ∀ r : Rank, isBlank r.digit = false := by decide
    refine ⟨List.cons_ne_nil _ _, ?_⟩
    intro c hc
    have hmem : c = s.file.letter ∨ c = s.rank.digit := by
      simpa only [squareText, Square.name, List.mem_cons, List.not_mem_nil, or_false] using hc
    rcases hmem with rfl | rfl
    · exact hfile _
    · exact hrank _

namespace CastlingRights

/-- A castling field that names rights. -/
structure IsNamedBy (r : CastlingRights) (t : Text) : Prop where
  isWord : IsWord t
  isField : isCastlingField t = true
  letters : ∀ c w, (rightLetters c w).any t.contains = r.allows c w

theorem isNamedBy_toText (r : CastlingRights) : r.IsNamedBy r.toText := by
  obtain ⟨a, b, c, d⟩ := r
  cases a <;> cases b <;> cases c <;> cases d <;>
    exact ⟨isWord_of_all rfl (by decide), by decide, by rintro (_ | _) (_ | _) <;> decide⟩

theorem toText_injective {r q : CastlingRights} (h : r.toText = q.toText) : r = q := by
  refine ext_allows ?_
  intro c w
  rw [← r.isNamedBy_toText.letters, ← q.isNamedBy_toText.letters, h]

/-- Reading a castling field cleans the rights. -/
theorem ofText_toText (b : Board) (r : CastlingRights) : ofText b r.toText = clean b r := by
  refine ext_allows ?_
  intro c w
  simp only [ofText, clean, allows_ofFn, r.isNamedBy_toText.letters]

end CastlingRights

theorem readCounter_decimal {n : Nat} (h : (decimal n).length ≤ maxDigits)
    (malformed negative : FenFault) : readCounter malformed negative (decimal n) = .ok n := by
  have hnat : ¬((n : Int) < 0) := by omega
  rw [readCounter, readInteger?_decimal h]
  simp only [if_neg hnat, Int.toNat_natCast]

theorem isWord_decimal (n : Nat) : IsWord (decimal n) := by
  have hnumeral := isNumeral_decimal n
  exact ⟨ne_nil_of_isNumeral hnumeral, fun _ hc =>
    isBlank_of_isAsciiDigit (isAsciiDigit_of_isNumeral hnumeral hc)⟩

namespace Position

/-! ## Records and their fields -/

/-- The fields of a position without its counters. -/
def epdFields (p : Position) : List Text :=
  [p.board.toText, [p.turn.letter], p.rights.toText, squareText p.passed]

/-- The fields of a position record. -/
def fenFields (p : Position) : List Text :=
  p.epdFields ++ [decimal p.halfmoves, decimal p.moveNumber]

theorem epd_eq_join (p : Position) : p.epd = join [' '] p.epdFields := rfl

theorem fen_eq_join (p : Position) : p.fen = join [' '] p.fenFields := by
  simp [fen, epd, epdShowing, counters, fenFields, epdFields, join_cons]

theorem isWord_of_mem_fenFields (p : Position) {t : Text} (h : t ∈ p.fenFields) : IsWord t := by
  simp only [fenFields, epdFields, List.cons_append, List.nil_append, List.mem_cons,
    List.not_mem_nil, or_false] at h
  rcases h with rfl | rfl | rfl | rfl | rfl | rfl
  · exact ⟨p.board.toText_ne_nil, fun _ hc => p.board.not_isBlank_of_mem_toText hc⟩
  · exact p.turn.isWord_letter
  · exact p.rights.isNamedBy_toText.isWord
  · exact isWord_squareText p.passed
  · exact isWord_decimal _
  · exact isWord_decimal _

theorem isWord_of_mem_epdFields (p : Position) {t : Text} (h : t ∈ p.epdFields) : IsWord t :=
  p.isWord_of_mem_fenFields (List.mem_append_left _ h)

theorem words_fen (p : Position) : words p.fen = p.fenFields := by
  rw [fen_eq_join, words_join fun _ => p.isWord_of_mem_fenFields]

theorem words_epd (p : Position) : words p.epd = p.epdFields := by
  rw [epd_eq_join, words_join fun _ => p.isWord_of_mem_epdFields]

theorem trim_fen (p : Position) : trim p.fen = p.fen := by
  rw [fen_eq_join, trim_join fun _ h => (p.isWord_of_mem_fenFields h).isTight]

theorem trim_epd (p : Position) : trim p.epd = p.epd := by
  rw [epd_eq_join, trim_join fun _ h => (p.isWord_of_mem_epdFields h).isTight]

/-! ## What the first four fields determine -/

/-- Positions that differ in their counters at most. -/
structure SameButCounters (p q : Position) : Prop where
  board : p.board = q.board
  turn : p.turn = q.turn
  rights : p.rights = q.rights
  passed : p.passed = q.passed

/-- **The first four fields name a position** up to its counters. -/
theorem sameButCounters_of_epd {p q : Position} (h : p.epd = q.epd) : SameButCounters p q := by
  have hfields : p.epdFields = q.epdFields := by rw [← words_epd, ← words_epd, h]
  simp only [epdFields, List.cons.injEq, and_true] at hfields
  obtain ⟨hboard, hturn, hrights, hpassed⟩ := hfields
  refine ⟨Board.toText_injective hboard, ?_, CastlingRights.toText_injective hrights, ?_⟩
  · have hread := congrArg (Color.ofText? [·]) hturn
    simpa only [Color.ofText?_letter, Option.some.injEq] using hread
  · rw [← ofName?_squareText p.passed, hpassed, ofName?_squareText]

theorem SameButCounters.hash_eq {p q : Position} (h : SameButCounters p q) : p.hash = q.hash := by
  rw [hash, h.board, h.turn, h.rights, h.passed, hash]

theorem hash_eq_of_epd {p q : Position} (h : p.epd = q.epd) : p.hash = q.hash :=
  (sameButCounters_of_epd h).hash_eq

/-! ## Reading records -/

/-- The first four fields are read back, with whatever counters stand behind them. -/
theorem ofFields_epdFields {p : Position} (hclean : p.HasCleanRights) (counters : List Text)
    (hlength : counters.length ≤ 2) {h n : Nat}
    (hh : readCounter .halfmoves .negativeHalfmoves (counters[0]?.getD ['0']) = .ok h)
    (hn : readCounter .moveNumber .negativeMoveNumber (counters[1]?.getD ['1']) = .ok n) :
    ofFields (p.epdFields ++ counters)
      = .ok { p with halfmoves := h, moveNumber := max 1 n } := by
  have hpassed : (p.passed.isNone && squareText p.passed != ['-']) = false := by
    cases p.passed <;> rfl
  have hcount : ¬(p.epdFields ++ counters).length > 6 := by
    rw [List.length_append, epdFields]
    simp only [List.length_cons, List.length_nil]
    omega
  have hrights : CastlingRights.ofText p.board p.rights.toText = p.rights := by
    rw [CastlingRights.ofText_toText, hclean]
  have h4 : (p.epdFields ++ counters)[4]? = counters[0]? := rfl
  have h5 : (p.epdFields ++ counters)[5]? = counters[1]? := rfl
  rw [ofFields]
  simp only [h4, h5, hh, hn, if_neg hcount]
  simp only [epdFields, List.cons_append, List.nil_append, List.getElem?_cons_zero,
    List.getElem?_cons_succ, Option.getD_some, Color.ofText?_letter, ofName?_squareText,
    p.rights.isNamedBy_toText.isField, hpassed, Board.ofText_toText, Bool.not_true,
    Bool.false_eq_true, if_false]
  exact congrArg
    (fun rights => Except.ok { p with rights, halfmoves := h, moveNumber := max 1 n }) hrights

/-- A position is read back from its record. -/
theorem ofFen_fen {p : Position} (hclean : p.HasCleanRights) (hnumber : 1 ≤ p.moveNumber)
    (hhalfmoves : (decimal p.halfmoves).length ≤ maxDigits)
    (hmoves : (decimal p.moveNumber).length ≤ maxDigits) : ofFen p.fen = .ok p := by
  have hread := ofFields_epdFields hclean [decimal p.halfmoves, decimal p.moveNumber]
    (Nat.le_refl 2)
    (readCounter_decimal hhalfmoves _ _) (readCounter_decimal hmoves _ _)
  rw [ofFen, words_fen, fenFields, hread, Nat.max_eq_right hnumber]

/-- Without its counters a position is read back with those of the start of a game. -/
theorem ofFen_epd {p : Position} (hclean : p.HasCleanRights) :
    ofFen p.epd = .ok { p with halfmoves := 0, moveNumber := 1 } := by
  have hread := ofFields_epdFields hclean [] (Nat.zero_le 2)
    (readCounter_decimal (n := 0) (by decide) _ _) (readCounter_decimal (n := 1) (by decide) _ _)
  rwa [List.append_nil, ← words_epd] at hread

theorem fenEpd_fen {p : Position} (hclean : p.HasCleanRights) (hnumber : 1 ≤ p.moveNumber)
    (hhalfmoves : (decimal p.halfmoves).length ≤ maxDigits)
    (hmoves : (decimal p.moveNumber).length ≤ maxDigits) : fenEpd p.fen = some p.epd := by
  rw [fenEpd, trim_fen, epdOfFen?, ofFen_fen hclean hnumber hhalfmoves hmoves]
  rfl

theorem fenEpd_epd {p : Position} (hclean : p.HasCleanRights) : fenEpd p.epd = some p.epd := by
  rw [fenEpd, trim_epd, epdOfFen?, ofFen_epd hclean]
  rfl

end Position

end Scoresheet.Chess
