import Scoresheet.Mainline.Replay
import Scoresheet.Proofs.Mainline.CleanText
import Scoresheet.Proofs.Pgn.Boundary

/-!
# What is computed from a main line

The number of moves, the fingerprint, the move list and the comparison of movetexts look at nothing
but the main line and at whether the text is blank. A numeric annotation of too many digits is the
one thing that keeps them from an answer.
-/

namespace Scoresheet

open Text Pgn Chess

/-! ## Texts that can be read -/

/-- The first game of a text is among its games, if it has one. -/
theorem first_eq_empty_or_mem (m : Text) :
    Transcript.first m = .empty ∨ Transcript.first m ∈ readGames (lines m) := by
  unfold Transcript.first
  cases hread : readGame (lines m) with
  | none => exact Or.inl rfl
  | some r =>
    right
    rw [readGames_of_some hread]
    exact List.mem_cons_self

theorem checked_of_not_isOversized {t : Transcript} (h : t.isOversized = false) :
    t.checked = .ok t := by
  unfold Transcript.isOversized at h
  unfold Transcript.checked
  split
  · rename_i he
    simp [he] at h
  · rfl

theorem ofMovetext_of_not_isOversized {m : Text}
    (h : (Transcript.first m).isOversized = false) :
    Mainline.ofMovetext m = .ok (Mainline.ofTranscript (Transcript.first m)) := by
  rw [Mainline.ofMovetext, checked_of_not_isOversized h]
  rfl

/-- A text with a main line can be read. -/
theorem not_isOversized_of_ofMovetext {m : Text} {p : Mainline}
    (h : Mainline.ofMovetext m = .ok p) :
    (Transcript.first m).isOversized = false ∧ Mainline.ofTranscript (Transcript.first m) = p := by
  have hread : (Transcript.first m).isOversized = false := by
    cases he : (Transcript.first m).error with
    | none => simp [Transcript.isOversized, he]
    | some e =>
      cases e with
      | malformed fault => simp [Transcript.isOversized, he]
      | oversizedNag n => simp [Mainline.ofMovetext, Transcript.checked, he, Except.map] at h
  refine ⟨hread, ?_⟩
  rw [ofMovetext_of_not_isOversized hread] at h
  exact Except.ok.inj h

theorem isBlankText_of_sans_ne_nil {m : Text} {p : Mainline} (h : Mainline.ofMovetext m = .ok p)
    (hsans : p.sans ≠ []) : isBlankText m = false := by
  cases hb : isBlankText m with
  | false => rfl
  | true =>
    rw [ofMovetext_of_isBlankText hb] at h
    rw [← Except.ok.inj h] at hsans
    exact absurd rfl hsans

/-! ## The analyses -/

/-- The beginning of a list, of no more than a number of elements if there is a limit. -/
def atMost {α : Type} (limit : Option Int) (l : List α) : List α :=
  match limit with
  | none => l
  | some k => l.take k.toNat

variable {m m' : Text} {p : Mainline}

theorem plyCount_of_ofMovetext (h : Mainline.ofMovetext m = .ok p) :
    plyCount m = .ok p.plyCount := by
  rw [plyCount, h]
  rfl

theorem normalize_of_ofMovetext (h : Mainline.ofMovetext m = .ok p) :
    normalize m = .ok p.render := by
  rw [normalize, h]
  rfl

theorem movesHash_of_not_isOversized (h : (Transcript.first m).isOversized = false) :
    movesHash m = .ok (if isBlankText m || meetsFault (Transcript.first m) then none
      else some (lastPosition (replay .initial (Transcript.first m).sans)).hash) := by
  unfold movesHash
  rw [checked_of_not_isOversized h]
  cases isBlankText m <;> rfl

theorem movesHash_of_ofMovetext (h : Mainline.ofMovetext m = .ok p) (hb : isBlankText m = false)
    (hfailed : p.failed = false) :
    movesHash m = .ok (some (lastPosition (replay .initial p.sans)).hash) := by
  obtain ⟨hread, rfl⟩ := not_isOversized_of_ofMovetext h
  have hfault : meetsFault (Transcript.first m) = false := by
    rw [meetsFault, show (Transcript.first m).isMalformed = false from hfailed, Bool.false_and]
  rw [movesHash_of_not_isOversized hread, hb, hfault]
  rfl

theorem movesMade_of_ofMovetext (h : Mainline.ofMovetext m = .ok p) (limit : Option Int) :
    movesMade m limit = .ok (atMost limit (replay .initial p.sans)) := by
  obtain ⟨hread, rfl⟩ := not_isOversized_of_ofMovetext h
  have hchecked := checked_of_not_isOversized hread
  cases limit with
  | none =>
    rw [movesMade, hchecked]
    rfl
  | some k =>
    simp only [movesMade, atMost, hchecked]
    by_cases hk : k ≤ 0
    · rw [if_pos hk, Int.toNat_of_nonpos hk, List.take_zero]
    · rw [if_neg hk]
      rfl

theorem isSubset_of_not_isOversized {short long : Text}
    (hs : (Transcript.first short).isOversized = false)
    (hl : (Transcript.first long).isOversized = false) :
    isSubset short long = .ok
      (!hasNoMainline short (Mainline.ofTranscript (Transcript.first short))
        && !hasNoMainline long (Mainline.ofTranscript (Transcript.first long))
        && (Transcript.first short).sans.isPrefixOf (Transcript.first long).sans) := by
  rw [isSubset_eq_isSubsetByReading, isSubsetByReading, ofMovetext_of_not_isOversized hs,
    ofMovetext_of_not_isOversized hl]
  rfl

/-- A text with moves is contained in every text of the same main line. -/
theorem isSubset_of_ofMovetext (h : Mainline.ofMovetext m = .ok p)
    (h' : Mainline.ofMovetext m' = .ok p) (hfailed : p.failed = false) (hsans : p.sans ≠ []) :
    isSubset m m' = .ok true := by
  have hmain : ∀ t : Text, hasNoMainline t p = false := by
    intro t
    simp [hasNoMainline, hfailed, hsans]
  have hprefix : p.sans.isPrefixOf p.sans = true :=
    List.isPrefixOf_iff_prefix.2 List.prefix_rfl
  rw [isSubset_eq_isSubsetByReading, isSubsetByReading, h, h']
  simp [hmain, hprefix, bind, Except.bind, pure, Except.pure]

/-- **Texts of the same main line have the same analyses**, if it has moves and no fault. -/
theorem analyses_congr (h : Mainline.ofMovetext m = .ok p) (h' : Mainline.ofMovetext m' = .ok p)
    (hfailed : p.failed = false) (hsans : p.sans ≠ []) :
    plyCount m = plyCount m' ∧ movesHash m = movesHash m' ∧
      (∀ limit, movesJson m limit = movesJson m' limit) ∧ isSubset m m' = .ok true := by
  refine ⟨?_, ?_, fun limit => ?_, isSubset_of_ofMovetext h h' hfailed hsans⟩
  · rw [plyCount_of_ofMovetext h, plyCount_of_ofMovetext h']
  · rw [movesHash_of_ofMovetext h (isBlankText_of_sans_ne_nil h hsans) hfailed,
      movesHash_of_ofMovetext h' (isBlankText_of_sans_ne_nil h' hsans) hfailed]
  · rw [movesJson, movesJson, movesMade_of_ofMovetext h, movesMade_of_ofMovetext h']

end Scoresheet
