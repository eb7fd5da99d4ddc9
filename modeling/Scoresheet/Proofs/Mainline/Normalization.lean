import Scoresheet.Proofs.Mainline.Analyses
import Scoresheet.Proofs.Mainline.PlainText
import Scoresheet.Proofs.Pgn.Protocol

/-!
# Normal forms of movetexts

`normalize` writes a movetext anew from its main line. The moves of a main line are spelled
canonically and its result is one of four markers, whatever the text was
(`isSpelled_of_ofMovetext`), and such a main line is read back from what is written for it
(`ofMovetext_render`). So a normal form has the main line of the text it was made from and is its
own normal form, and the analyses of the two agree.
-/

namespace Scoresheet

open Text Pgn Chess

/-! ## What a main line can hold -/

/-- Moves and result are spelled as a reader reports them. -/
structure Mainline.IsSpelled (p : Mainline) : Prop where
  sans : ∀ san ∈ p.sans, San.canonical? san = some san
  outcome : ∀ marker, p.outcome = some marker → marker ∈ resultSpellings

theorem isWellSpelled_first (m : Text) : ∀ e ∈ (Transcript.first m).events, e.IsWellSpelled := by
  rcases first_eq_empty_or_mem m with hempty | hmem
  · rw [hempty]
    exact List.forall_mem_nil _
  · exact isWellSpelled_of_mem_readGames hmem

theorem isSpelled_ofTranscript {t : Transcript} (h : ∀ e ∈ t.events, e.IsWellSpelled) :
    (Mainline.ofTranscript t).IsSpelled := by
  constructor
  · intro san hsan
    obtain ⟨e, he, hes⟩ := List.mem_filterMap.1 hsan
    have hspelled := h e he
    cases e with
    | san token =>
      obtain rfl : token = san := by simpa [Transcript.san?] using hes
      exact hspelled
    | _ => simp [Transcript.san?] at hes
  · intro marker hmarker
    obtain ⟨e, he, hes⟩ := List.mem_filterMap.1 (List.mem_of_getLast? hmarker)
    have hspelled := h e he
    cases e with
    | outcome _ =>
      obtain rfl := Option.some.inj hes
      exact hspelled
    | _ => simp [Transcript.outcome?] at hes

theorem isSpelled_of_ofMovetext {m : Text} {p : Mainline} (h : Mainline.ofMovetext m = .ok p) :
    p.IsSpelled := by
  obtain ⟨_, rfl⟩ := not_isOversized_of_ofMovetext h
  exact isSpelled_ofTranscript (isWellSpelled_first m)

/-! ## Results behind moves -/

theorem exists_result_of_mem {marker : Text} (h : marker ∈ resultSpellings) :
    ∃ result : GameResult, marker = result.toText := by
  simp only [resultSpellings, List.mem_cons, List.not_mem_nil, or_false] at h
  rcases h with rfl | rfl | rfl | rfl
  · exact ⟨.whiteWins, rfl⟩
  · exact ⟨.blackWins, rfl⟩
  · exact ⟨.draw, rfl⟩
  · exact ⟨.unknown, rfl⟩

namespace Pgn.GameResult

theorem startsQuietly_toText (r : GameResult) : StartsQuietly r.toText := by
  cases r <;> exact startsQuietly_cons _ (by decide) (by decide) (by decide)

theorem isTight_toText (r : GameResult) : IsTight r.toText :=
  isTight_of_visible (by cases r <;> simp [toText]) fun _ hc =>
    MoveWord.not_isBlank_of_isWordChar (isWordChar_of_mem hc)

/-- The marker of the result at the end of a text. -/
theorem scanText_toText (r : GameResult) :
    scanText .start [] r.toText = ⟨[.outcome r.toText], .complete, []⟩ := by
  have hread : Cursor.start.readWord r.toText.reverse.reverse
      = .ok ([.outcome r.toText], ⟨0, true, none⟩) := by
    rw [List.reverse_reverse, r.readWord_toText]
  have hchars := scanText_wordChars (s := .start) rfl
    (fun c hc => isWordChar_of_mem (r := r) hc) []
  rw [List.append_nil] at hchars
  rw [hchars, scanText_nil hread rfl]

end Pgn.GameResult

/-- The main line of a plain movetext with the marker of a result behind it. -/
theorem ofMovetext_plainWords_result {items : List PlainItem}
    (h : ∀ item ∈ items, item.IsSound) (r : GameResult) :
    Mainline.ofMovetext (trimLeft (join [' '] (plainWords 0 items) ++ ' ' :: r.toText))
      = .ok ⟨items.filterMap PlainItem.san?, some r.toText, false⟩ := by
  have hmarker := r.startsQuietly_toText
  by_cases hne : items = []
  · -- without items the space before the marker is trimmed off
    subst hne
    have htrim : trimLeft ([' '] ++ r.toText) = r.toText := by
      rw [trimLeft_append (by decide), r.isTight_toText.trimLeft]
    show Mainline.ofMovetext (trimLeft ([' '] ++ r.toText)) = _
    rw [htrim, ofMovetext_of_scanText hmarker r.isTight_toText.isBlankText r.scanText_toText]
    rfl
  · have htight : IsTight (join [' '] (plainWords 0 items) ++ ([' '] ++ r.toText)) :=
      (isTight_join (plainWords_ne_nil hne 0) fun w hw =>
        isTight_of_mem_plainWords h hw).append r.isTight_toText [' ']
    have hscan := scanText_plainWords h hne 0 (endsWord_space hmarker)
    rw [scanText_space rfl hmarker, r.scanText_toText] at hscan
    have hmain := ofMovetext_of_scanText (startsQuietly_plainWords h hne 0 _) htight.isBlankText
      hscan
    rw [List.filterMap_append, List.filterMap_append, filterMap_san?_event,
      filterMap_outcome?_event] at hmain
    show Mainline.ofMovetext (trimLeft (join [' '] (plainWords 0 items) ++ ([' '] ++ r.toText)))
      = _
    rw [htight.trimLeft]
    rw [hmain]
    exact congrArg Except.ok (congrArg (Mainline.mk · _ _) (List.append_nil _))

/-! ## Reading what is written for a main line -/

theorem filterMap_san?_move (sans : List Text) :
    (sans.map PlainItem.move).filterMap PlainItem.san? = sans := by
  rw [List.filterMap_map]
  exact List.filterMap_some

/-- **A main line is read back from what is written for it**, without a fault. -/
theorem ofMovetext_render {p : Mainline} (h : p.IsSpelled) :
    Mainline.ofMovetext p.render = .ok ⟨p.sans, p.outcome, false⟩ := by
  obtain ⟨sans, outcome, failed⟩ := p
  have hsound : ∀ item ∈ sans.map PlainItem.move, item.IsSound := List.forall_mem_map.2 h.sans
  have hwords : Mainline.renderSans sans = join [' '] (plainWords 0 (sans.map .move)) := by
    rw [plainWords_move]
    rfl
  cases outcome with
  | none =>
    show Mainline.ofMovetext (Mainline.renderSans sans) = _
    rw [hwords, ofMovetext_plainWords hsound, filterMap_san?_move]
  | some marker =>
    obtain ⟨r, rfl⟩ := exists_result_of_mem (h.outcome marker rfl)
    have hrender : Mainline.render ⟨sans, some r.toText, failed⟩
        = trimLeft (Mainline.renderSans sans ++ ' ' :: r.toText) := by
      cases r <;> rfl
    rw [hrender, hwords, ofMovetext_plainWords_result hsound, filterMap_san?_move]

/-- **Normal forms are canonical.** A normal form has the main line of the text that it was made
from and no fault, and is its own normal form. If the text has moves and no fault, the two have the
same number of moves, the same fingerprint and the same move list, and each is contained in the
other. -/
theorem normalize_canonical {m : Text} (hread : (Transcript.first m).isOversized = false) :
    ∃ p n, Mainline.ofMovetext m = .ok p ∧ normalize m = .ok n ∧
      Mainline.ofMovetext n = .ok ⟨p.sans, p.outcome, false⟩ ∧ normalize n = .ok n ∧
      (p.failed = false → p.sans ≠ [] →
        plyCount m = plyCount n ∧ movesHash m = movesHash n ∧
          (∀ limit, movesJson m limit = movesJson n limit) ∧
          isSubset m n = .ok true ∧ isSubset n m = .ok true) := by
  have hm := ofMovetext_of_not_isOversized hread
  generalize Mainline.ofTranscript (Transcript.first m) = p at hm
  have hn := ofMovetext_render (isSpelled_of_ofMovetext hm)
  have hidem : normalize p.render = .ok p.render := by
    rw [normalize_of_ofMovetext hn]
    rfl
  refine ⟨p, p.render, hm, normalize_of_ofMovetext hm, hn, hidem, ?_⟩
  intro hfailed hsans
  have hsame : (⟨p.sans, p.outcome, false⟩ : Mainline) = p := by rw [← hfailed]
  rw [hsame] at hn
  obtain ⟨hplies, hhash, hjson, hsubset⟩ := analyses_congr hm hn hfailed hsans
  exact ⟨hplies, hhash, hjson, hsubset, (analyses_congr hn hm hfailed hsans).2.2.2⟩

/-- A game with a variation, a comment, glyphs and a result in another spelling. -/
def annotatedGame : Text := "1.e4! \x7bbest\x7d (1. d4) 1...e5?! $2 ½-½".toList

theorem normalize_canonical_e4 :
    (Transcript.first annotatedGame).isOversized = false ∧
      ∃ n, normalize annotatedGame = .ok n ∧ n = "1. e4 e5 1/2-1/2".toList ∧
        normalize n = .ok n := by
  have hread : (Transcript.first annotatedGame).isOversized = false := by decide +kernel
  obtain ⟨p, n, _, hnormal, _, hidem, _⟩ := normalize_canonical hread
  have hn : normalize annotatedGame = .ok "1. e4 e5 1/2-1/2".toList := by decide +kernel
  rw [hn] at hnormal
  obtain rfl := Except.ok.inj hnormal
  exact ⟨hread, _, hn, rfl, hidem⟩

end Scoresheet
