import Scoresheet.Proofs.Mainline.MoveLists

/-!
# Fingerprints

A movetext without a fingerprint is absent or blank, or it is malformed behind moves that can all be
made (`hash_eq_none_iff`): a text whose moves break off before the malformed place keeps the
fingerprint of the position where they broke off. The fingerprint is that of a position up to its
counters, so movetexts whose move lists end with the same first four fields share it, whatever way
led there (`transpositions_share_hash`).
-/

namespace Scoresheet

open Text Pgn Chess

variable {m m' : Text}

/-! ## Texts without a fingerprint -/

/-- All moves can be made exactly if a replay makes as many. -/
theorem isPlayable_iff_length_replay {p : Position} {sans : List Text} :
    IsPlayable p sans ↔ (replay p sans).length = sans.length := by
  have hlongest := isLongestPlayable_replay sans p
  have hlength : (playedSans p sans).length = (replay p sans).length := List.length_map _
  constructor
  · intro hplayable
    have hall := hlongest.longest sans List.prefix_rfl hplayable
    rw [← hlength]
    exact Nat.le_antisymm hlongest.isPrefix.length_le hall.length_le
  · intro h
    have hplayable := hlongest.isPlayable
    rwa [hlongest.isPrefix.eq_of_length (hlength.trans h)] at hplayable

theorem meetsFault_iff {t : Transcript} :
    meetsFault t = true ↔ t.isMalformed = true ∧ IsPlayable .initial t.sans := by
  rw [meetsFault, Bool.and_eq_true, beq_iff_eq, isPlayable_iff_length_replay]

/-- A text has no fingerprint if it is blank or its malformed place is behind its last move made. -/
theorem movesHash_eq_none_iff (hread : (Transcript.first m).isOversized = false) :
    movesHash m = .ok none ↔ isBlankText m = true ∨
      ∃ p, Mainline.ofMovetext m = .ok p ∧ p.failed = true ∧ IsPlayable .initial p.sans := by
  have hmain := ofMovetext_of_not_isOversized hread
  have hfault : (∃ p, Mainline.ofMovetext m = .ok p ∧ p.failed = true ∧
      IsPlayable .initial p.sans) ↔ meetsFault (Transcript.first m) = true := by
    rw [meetsFault_iff]
    constructor
    · rintro ⟨p, hp, hfailed, hplayable⟩
      obtain rfl := Except.ok.inj (hmain.symm.trans hp)
      exact ⟨hfailed, hplayable⟩
    · rintro ⟨hfailed, hplayable⟩
      exact ⟨_, hmain, hfailed, hplayable⟩
  rw [hfault, movesHash_of_not_isOversized hread, Except.ok.injEq, ← Bool.or_eq_true]
  cases isBlankText m || meetsFault (Transcript.first m) <;> simp

/-- **What has no fingerprint**: an absent movetext, which counts as an empty one, a blank one, and
one that is malformed behind moves which can all be made. A listener that stops at the first move
that cannot be made comes to the same answer. -/
theorem hash_eq_none_iff {movetext : Option Text}
    (hread : (Transcript.first (movetext.getD [])).isOversized = false) :
    ∃ h, movesHash (movetext.getD []) = .ok h ∧ hashed (movetext.getD []) = .ok h ∧
      (h = none ↔ movetext = none ∨ ∃ m ∈ movetext, isBlankText m = true ∨
        ∃ p, Mainline.ofMovetext m = .ok p ∧ p.failed = true ∧ IsPlayable .initial p.sans) := by
  have hhash := movesHash_of_not_isOversized hread
  refine ⟨_, hhash, by rw [hashed_eq, hhash], ?_⟩
  cases movetext with
  | none => exact iff_of_true rfl (Or.inl rfl)
  | some m =>
    have hnone := movesHash_eq_none_iff (m := m) hread
    rw [Option.getD_some] at hhash ⊢
    rw [hhash, Except.ok.injEq] at hnone
    rw [hnone]
    simp

/-- An illegal move in front of a comment that is not closed. -/
def illegalBeforeFault : Text := "1. Ke2 \x7bopen".toList

theorem hash_eq_none_iff_illegalBeforeFault :
    (Transcript.first illegalBeforeFault).isOversized = false ∧
    ∃ h, movesHash illegalBeforeFault = .ok h ∧ hashed illegalBeforeFault = .ok h ∧ h ≠ none := by
  have hread : (Transcript.first ((some illegalBeforeFault).getD [])).isOversized = false := by
    decide +kernel
  obtain ⟨h, hhash, hhashed, hnone⟩ := hash_eq_none_iff hread
  refine ⟨hread, h, hhash, hhashed, ?_⟩
  rw [ne_eq, hnone]
  rintro (habsent | ⟨m, ⟨⟩, (hblank | ⟨p, hp, -, hplayable⟩)⟩)
  · cases habsent
  · revert hblank
    decide
  · have hmain : Mainline.ofMovetext illegalBeforeFault = .ok ⟨["Ke2".toList], none, true⟩ := by
      decide +kernel
    obtain rfl := Except.ok.inj (hp.symm.trans hmain)
    revert hplayable
    rw [isPlayable_iff_length_replay]
    decide +kernel

/-- A malformed movetext can have a fingerprint. -/
theorem malformed_text_has_hash :
    ¬∀ m : Text, (Transcript.first m).isOversized = false →
      (movesHash m = .ok none ↔ isBlankText m = true ∨
        ∃ p, Mainline.ofMovetext m = .ok p ∧ p.failed = true) := by
  intro h
  have hread : (Transcript.first illegalBeforeFault).isOversized = false := by decide +kernel
  have hmain : Mainline.ofMovetext illegalBeforeFault = .ok ⟨["Ke2".toList], none, true⟩ := by
    decide +kernel
  have hhash : movesHash illegalBeforeFault = .ok (some Position.initial.hash) := by
    have hfault : isBlankText illegalBeforeFault = false ∧
        meetsFault (Transcript.first illegalBeforeFault) = false ∧
        replay .initial (Transcript.first illegalBeforeFault).sans = [] := by decide +kernel
    rw [movesHash_of_not_isOversized hread, hfault.1, hfault.2.1, hfault.2.2]
    rfl
  have hnone := (h illegalBeforeFault hread).2 (Or.inr ⟨_, hmain, rfl⟩)
  rw [hhash] at hnone
  cases hnone

/-! ## Transpositions -/

/-- The member of an object. -/
def Json.member? (name : Text) : Json → Option Json
  | .object members => members.lookup name
  | _ => none

/-- A fingerprint is that of the position behind the last move made. -/
theorem eq_hash_of_movesHash {h : UInt64} (hhash : movesHash m = .ok (some h)) :
    (Transcript.first m).isOversized = false ∧
      h = (lastPosition (replay .initial (Transcript.first m).sans)).hash := by
  have hanswered : (Transcript.first m).isOversized = false := by
    by_cases hb : isBlankText m = true
    · rw [movesHash, if_pos hb] at hhash
      simp at hhash
    · rw [movesHash, if_neg hb] at hhash
      cases hchecked : (Transcript.first m).checked with
      | error n => simp [hchecked, Except.map] at hhash
      | ok t => exact (not_isOversized_of_ofMovetext (congrArg (Except.map _) hchecked)).1
  refine ⟨hanswered, ?_⟩
  rw [movesHash_of_not_isOversized hanswered, Except.ok.injEq] at hhash
  split at hhash
  · cases hhash
  · exact (Option.some.inj hhash).symm

/-- The last entry shows the position behind the last move made. -/
theorem member?_epd_of_getLast? (hread : (Transcript.first m).isOversized = false)
    {entries : List Json} (hlist : IsMoveList m none entries) {e : Json}
    (hlast : entries.getLast? = some e) : e.member? "epd".toList
      = some (.string (lastPosition (replay .initial (Transcript.first m).sans)).epd) := by
  rw [(isMoveList_iff hread).1 hlist, moveEntries_eq, List.getLast?_mapIdx] at hlast
  obtain ⟨made, hmade, rfl⟩ := Option.map_eq_some_iff.1 hlast
  rw [atMost] at hmade
  rw [lastPosition, hmade]
  rfl

/-- **Transpositions share their fingerprint.** Movetexts whose move lists end with the same first
four fields of a position record have the same fingerprint. -/
theorem transpositions_share_hash {h h' : UInt64} {entries entries' : List Json} {e e' : Json}
    (hhash : movesHash m = .ok (some h)) (hhash' : movesHash m' = .ok (some h'))
    (hlist : IsMoveList m none entries) (hlist' : IsMoveList m' none entries')
    (hlast : entries.getLast? = some e) (hlast' : entries'.getLast? = some e')
    (hepd : e.member? "epd".toList = e'.member? "epd".toList) : h = h' := by
  obtain ⟨hread, rfl⟩ := eq_hash_of_movesHash hhash
  obtain ⟨hread', rfl⟩ := eq_hash_of_movesHash hhash'
  rw [member?_epd_of_getLast? hread hlist hlast, member?_epd_of_getLast? hread' hlist' hlast',
    Option.some.injEq, Json.string.injEq] at hepd
  exact Position.hash_eq_of_epd hepd

/-- A text without a fault of which a move can be made has a fingerprint and a last entry. -/
theorem exists_last_entry (hread : (Transcript.first m).isOversized = false)
    (hfault : (isBlankText m || meetsFault (Transcript.first m)) = false)
    (hmoves : replay .initial (Transcript.first m).sans ≠ []) :
    ∃ entries e,
      movesHash m = .ok (some (lastPosition (replay .initial (Transcript.first m).sans)).hash) ∧
      IsMoveList m none entries ∧ entries.getLast? = some e ∧ e.member? "epd".toList
        = some (.string (lastPosition (replay .initial (Transcript.first m).sans)).epd) := by
  have hlist : IsMoveList m none _ := (isMoveList_iff hread).2 rfl
  have hentries : moveEntries 1 (atMost none (replay .initial (Transcript.first m).sans)) ≠ [] := by
    rw [moveEntries_eq]
    simpa [atMost] using hmoves
  have hlast := List.getLast?_eq_some_getLast hentries
  refine ⟨_, _, ?_, hlist, hlast, member?_epd_of_getLast? hread hlist hlast⟩
  rw [movesHash_of_not_isOversized hread, hfault]
  rfl

/-- White's knights come out, the king's first; behind them stands an illegal move. -/
def kingKnightFirst : Text := "1. Nf3 Nf6 \x7b[%clk 0:01]\x7d 2. Nc3 Ke4 3. e4".toList

/-- White's knights come out, the queen's first. -/
def queenKnightFirst : Text := "1. Nc3 $1 (1. e4) 1... Nf6 2. Nf3 *".toList

theorem transpositions_share_hash_knights :
    ∃ h h' entries entries' e e', movesHash kingKnightFirst = .ok (some h) ∧
      movesHash queenKnightFirst = .ok (some h') ∧ IsMoveList kingKnightFirst none entries ∧
      IsMoveList queenKnightFirst none entries' ∧ entries.getLast? = some e ∧
      entries'.getLast? = some e' ∧ e.member? "epd".toList = e'.member? "epd".toList ∧ h = h' := by
  have hsans : (Transcript.first kingKnightFirst).sans
      = ["Nf3".toList, "Nf6".toList, "Nc3".toList, "Ke4".toList, "e4".toList] := by decide +kernel
  have hsans' : (Transcript.first queenKnightFirst).sans
      = ["Nc3".toList, "Nf6".toList, "Nf3".toList] := by decide +kernel
  have hepd : (lastPosition (replay .initial (Transcript.first kingKnightFirst).sans)).epd
      = (lastPosition (replay .initial (Transcript.first queenKnightFirst).sans)).epd := by
    rw [hsans, hsans']
    decide +kernel
  obtain ⟨entries, e, hhash, hlist, hlast, hmember⟩ :=
    exists_last_entry (m := kingKnightFirst)
      (by decide +kernel) (by decide +kernel) (by rw [hsans]; decide +kernel)
  obtain ⟨entries', e', hhash', hlist', hlast', hmember'⟩ :=
    exists_last_entry (m := queenKnightFirst)
      (by decide +kernel) (by decide +kernel) (by rw [hsans']; decide +kernel)
  have hsame : e.member? "epd".toList = e'.member? "epd".toList := by
    rw [hmember, hmember', hepd]
  exact ⟨_, _, entries, entries', e, e', hhash, hhash', hlist, hlist', hlast, hlast', hsame,
    transpositions_share_hash hhash hhash' hlist hlist' hlast hlast' hsame⟩

end Scoresheet
