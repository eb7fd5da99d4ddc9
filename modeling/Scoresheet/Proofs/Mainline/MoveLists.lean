import Scoresheet.Proofs.Chess.PositionRecord
import Scoresheet.Proofs.Mainline.Normalization
import Scoresheet.Proofs.Mainline.Playable
import Scoresheet.Proofs.Pgn.MoveCount
import Scoresheet.Proofs.Text.JsonText

/-!
# Move lists

The text of a move list determines its entries (`isMoveList_iff`). An entry belongs to a position
that is reached after as many moves as the entry's number says, so its fields agree with that number
and with each other: the position record shows the side and the number of the next move, its first
four fields are the entry's own, and reading either of the two gives them back
(`moveList_agrees`).
-/

namespace Scoresheet

open Text Pgn Chess

variable {m : Text} {limit : Option Int} {entries : List Json}

/-! ## Entries -/

/-- The entries of a movetext's move list. -/
def IsMoveList (m : Text) (limit : Option Int) (entries : List Json) : Prop :=
  movesJson m limit = .ok (Json.array entries).toText

theorem movesJson_of_not_isOversized (hread : (Transcript.first m).isOversized = false)
    (limit : Option Int) : movesJson m limit = .ok (Json.array (moveEntries 1
      (atMost limit (replay .initial (Transcript.first m).sans)))).toText := by
  rw [movesJson, movesMade_of_ofMovetext (ofMovetext_of_not_isOversized hread)]
  rfl

/-- **A text that can be read has one move list**, with an entry for each move made. -/
theorem isMoveList_iff (hread : (Transcript.first m).isOversized = false) :
    IsMoveList m limit entries ↔
      entries = moveEntries 1 (atMost limit (replay .initial (Transcript.first m).sans)) := by
  rw [IsMoveList, movesJson_of_not_isOversized hread, Except.ok.injEq]
  constructor
  · intro h
    exact (Json.array.inj (Json.toText_injective h)).symm
  · rintro rfl
    rfl

theorem getElem?_of_atMost {α : Type} {l : List α} {i : Nat} {a : α}
    (h : (atMost limit l)[i]? = some a) : l[i]? = some a := by
  cases limit with
  | none => exact h
  | some k =>
    rw [atMost, List.getElem?_take] at h
    split at h
    · exact h
    · cases h

/-- An entry is that of the move at its place. -/
theorem exists_made_of_isMoveList (hread : (Transcript.first m).isOversized = false)
    (hlist : IsMoveList m limit entries) {i : Nat} {entry : Json}
    (hentry : entries[i]? = some entry) :
    ∃ made, (replay .initial (Transcript.first m).sans)[i]? = some made ∧
      entry = moveEntry (i + 1) made := by
  rw [(isMoveList_iff hread).1 hlist, moveEntries_eq, List.getElem?_mapIdx] at hentry
  obtain ⟨made, hmade, rfl⟩ := Option.map_eq_some_iff.1 hentry
  exact ⟨made, getElem?_of_atMost hmade, by rw [Nat.add_comm]⟩

/-! ## Moves made -/

/-- A move that a replay makes is one of those it was given. -/
theorem mem_sans_of_replay {p : Position} {sans : List Text} {i : Nat} {made : MoveMade}
    (h : (replay p sans)[i]? = some made) : made.san ∈ sans :=
  (isLongestPlayable_replay sans p).isPrefix.mem
    (List.mem_map_of_mem (List.mem_of_getElem? h))

theorem lt_length_of_replay {p : Position} {sans : List Text} {i : Nat} {made : MoveMade}
    (h : (replay p sans)[i]? = some made) : i < sans.length := by
  have hlength := (isLongestPlayable_replay sans p).isPrefix.length_le
  rw [playedSans, List.length_map] at hlength
  exact Nat.lt_of_lt_of_le (List.getElem?_eq_some_iff.1 h).1 hlength

/-! ## Agreement -/

/-- Fields of an entry that agree with the number of its move and with each other. -/
structure AgreesAt (ply : Nat) (san fen epd : Text) : Prop where
  canonical : San.canonical? san = some san
  sixFields : (words fen).length = 6 ∧ fen = join [' '] (words fen)
  turn : (words fen)[1]? = some (if ply % 2 = 1 then ['b'] else ['w'])
  moveNumber : (words fen)[5]? = some (decimal (ply / 2 + 1))
  firstFields : epd = join [' '] ((words fen).take 4)
  fenEpd_epd : fenEpd epd = some epd

/-- The record of a position that is reached after a number of moves agrees with that number. -/
theorem agreesAt_of_isReachedAfter {ply : Nat} {p : Position} (h : IsReachedAfter ply p)
    {san : Text} (hsan : San.canonical? san = some san) : AgreesAt ply san p.fen p.epd where
  canonical := hsan
  sixFields := by
    rw [p.words_fen, p.fen_eq_join]
    exact ⟨rfl, rfl⟩
  turn := by
    have hletter : [p.turn.letter] = if ply % 2 = 1 then ['b'] else ['w'] := by
      rw [h.turn, turnAfter]
      rcases Nat.mod_two_eq_zero_or_one ply with hply | hply <;> rw [hply] <;> rfl
    rw [p.words_fen, ← hletter]
    rfl
  moveNumber := by
    rw [p.words_fen, ← h.moveNumber]
    rfl
  firstFields := by
    rw [p.words_fen, p.epd_eq_join]
    rfl
  fenEpd_epd := Position.fenEpd_epd h.cleanRights

/-- Both counters are converted if the number of moves has no more digits than numerals may have. -/
theorem fenEpd_fen_of_isReachedAfter {ply : Nat} {p : Position} (h : IsReachedAfter ply p)
    (hpos : 0 < ply) (hply : (decimal ply).length ≤ maxDigits) : fenEpd p.fen = some p.epd := by
  have hdigits : ∀ n, n ≤ ply → (decimal n).length ≤ maxDigits :=
    fun n hn => Nat.le_trans (length_decimal_le hn) hply
  have hnumber : 1 ≤ p.moveNumber ∧ p.moveNumber ≤ ply := by
    rw [h.moveNumber]
    omega
  exact Position.fenEpd_fen h.cleanRights hnumber.1 (hdigits _ h.halfmoves) (hdigits _ hnumber.2)

/-- **The entries of a move list agree with their places and with themselves.** The counters of a
record are no greater than the number of moves, and so than that of the characters of the text. A
counter of more than `maxDigits` digits could not be converted any more, but takes a text whose
length has that many digits too, longer than any string can be. -/
theorem moveList_agrees (hread : (Transcript.first m).isOversized = false) (limit : Option Int) :
    (∃ entries, IsMoveList m limit entries) ∧
    ∀ entries, IsMoveList m limit entries → ∀ i entry, entries[i]? = some entry →
      ∃ san fen epd, entry = .object [("ply".toList, .number (i + 1)),
          ("move".toList, .string san), ("fen".toList, .string fen), ("epd".toList, .string epd)] ∧
        AgreesAt (i + 1) san fen epd ∧
        ((decimal m.length).length ≤ maxDigits → fenEpd fen = some epd) := by
  refine ⟨⟨_, (isMoveList_iff hread).2 rfl⟩, ?_⟩
  intro entries hlist i entry hentry
  obtain ⟨made, hmade, rfl⟩ := exists_made_of_isMoveList hread hlist hentry
  have hreached : IsReachedAfter (i + 1) made.position := by
    have h := IsReachedAfter.initial.of_replay hmade
    rwa [Nat.zero_add] at h
  have hsan : San.canonical? made.san = some made.san :=
    (isSpelled_ofTranscript (isWellSpelled_first m)).sans _ (mem_sans_of_replay hmade)
  refine ⟨_, _, _, rfl, agreesAt_of_isReachedAfter hreached hsan, fun hlength => ?_⟩
  have hply : i + 1 ≤ m.length :=
    Nat.le_trans (lt_length_of_replay hmade) (length_sans_first_le m)
  exact fenEpd_fen_of_isReachedAfter hreached (Nat.succ_pos i)
    (Nat.le_trans (length_decimal_le hply) hlength)

/-- A pawn is taken in passing, a king moves, and the seventh move cannot be made. -/
def sharpGame : Text := "1. e4 e6 2. e5 d5 3. exd6 Kd7 4. Ke3".toList

theorem moveList_agrees_sharpGame :
    (Transcript.first sharpGame).isOversized = false ∧
    (decimal sharpGame.length).length ≤ maxDigits ∧
    ∃ entries, IsMoveList sharpGame none entries ∧ entries.length = 6 ∧
      ∀ i entry, entries[i]? = some entry →
        ∃ san fen epd, entry = .object [("ply".toList, .number (i + 1)),
            ("move".toList, .string san), ("fen".toList, .string fen),
            ("epd".toList, .string epd)] ∧
          AgreesAt (i + 1) san fen epd ∧ fenEpd fen = some epd := by
  have hread : (Transcript.first sharpGame).isOversized = false := by decide +kernel
  have hlength : (decimal sharpGame.length).length ≤ maxDigits := by decide +kernel
  have hmoves : (replay .initial (Transcript.first sharpGame).sans).length = 6 := by
    decide +kernel
  obtain ⟨⟨entries, hlist⟩, hagrees⟩ := moveList_agrees hread none
  refine ⟨hread, hlength, entries, hlist, ?_, ?_⟩
  · rw [(isMoveList_iff hread).1 hlist, moveEntries_eq, List.length_mapIdx]
    exact hmoves
  · intro i entry hentry
    obtain ⟨san, fen, epd, hobject, hag, hfen⟩ := hagrees entries hlist i entry hentry
    exact ⟨san, fen, epd, hobject, hag, hfen hlength⟩

end Scoresheet
