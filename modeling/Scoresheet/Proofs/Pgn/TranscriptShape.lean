import Scoresheet.Proofs.Pgn.Boundary
import Scoresheet.Proofs.Pgn.Utterance

/-!
# The shape of a transcript

A movetext reports moves, annotations, comments, variations and results, and never an event that
starts or ends a part of a game. So a transcript has one first event and, if nothing was wrong, one
last event (`isFramed_of_mem_readGames`), whatever the text was.
-/

namespace Scoresheet.Pgn

open Text

/-! ## Events of a movetext -/

/-- An event that a movetext can report. -/
def Event.isOfMovetext : Event → Bool
  | .san _ | .comment _ | .partialComment _ | .nag _ | .beginVariation | .outcome _ => true
  | .beginTags | .tag _ _ | .beginMovetext | .endGame => false

theorem Event.isOfMovetext_of_isBeforeResult {e : Event} (h : e.isBeforeResult = true) :
    e.isOfMovetext = true := by
  cases e <;> simp_all [isBeforeResult, isOfMovetext]

/-- A text of a movetext reports nothing else. -/
def OfMovetext (events : List Event) : Prop := ∀ e ∈ events, e.isOfMovetext = true

theorem OfMovetext.append {events more : List Event} (h : OfMovetext events)
    (hm : OfMovetext more) : OfMovetext (events ++ more) := by
  intro e he
  rcases List.mem_append.1 he with he | he
  · exact h e he
  · exact hm e he

theorem Utters.ofMovetext {a b : Bool} {events : List Event} (h : Utters a events b) :
    OfMovetext events := by
  induction h with
  | nil =>
    intro e he
    simp at he
  | move hmove _ _ ih =>
    exact List.forall_mem_cons.2 ⟨Event.isOfMovetext_of_isBeforeResult hmove, ih⟩
  | outcome _ _ ih => exact List.forall_mem_cons.2 ⟨rfl, ih⟩
  | comment _ _ ih => exact List.forall_mem_cons.2 ⟨rfl, ih⟩

theorem IsCutOff.ofMovetext {o : Openings} {events : List Event} (h : IsCutOff o events) :
    OfMovetext events := by
  unfold IsCutOff at h
  intro e he
  split at h
  · obtain ⟨text, _, rfl⟩ := h
    rw [List.mem_singleton.1 he]
    rfl
  · rw [h] at he
    simp at he

/-- **A movetext reports only moves and what belongs to them.** -/
theorem ofMovetext_scanLines (lines : List Line) :
    OfMovetext (scanLines .start lines).events := by
  obtain ⟨es, finished, ending, hevents, hutters, hcut, hwhole⟩ :=
    utters_scanLines lines (Cursor.isSound_of_eq_none (s := .start) rfl)
  rw [hevents]
  refine hutters.ofMovetext.append ?_
  by_cases hunterminated : (scanLines .start lines).ending = .unterminatedComment
  · exact (hcut hunterminated).ofMovetext
  · rw [hwhole hunterminated]
    intro e he
    simp at he

/-! ## Transcripts -/

/-- An event inside a game. -/
def Event.isInner (e : Event) : Bool := e != .beginTags && e != .endGame

theorem Event.isInner_of_isOfMovetext {e : Event} (h : e.isOfMovetext = true) :
    e.isInner = true := by
  cases e <;> first | rfl | simp [isOfMovetext] at h

/-- A transcript that starts with the first event of a game and, if nothing was wrong, ends with the
last one. -/
def Transcript.IsFramed (t : Transcript) : Prop :=
  ∃ events, (∀ e ∈ events, e.isInner = true) ∧
    t.events = .beginTags :: events ++ (if t.error.isNone then [.endGame] else [])

/-- Only the first event of a framed transcript starts a game. -/
theorem Transcript.IsFramed.exists_cons {t : Transcript} (ht : t.IsFramed) :
    ∃ more, t.events = .beginTags :: more ∧ ∀ e ∈ more, e ≠ .beginTags := by
  obtain ⟨inner, hinner, hevents⟩ := ht
  refine ⟨_, hevents, fun e he => ?_⟩
  rcases List.mem_append.1 he with he | he
  · rintro rfl
    exact absurd (hinner _ he) (by decide)
  · rintro rfl
    split at he <;> simp at he

theorem isFramed_gameFrom (lines : List Line) : (gameFrom lines).1.IsFramed := by
  refine ⟨(readTags lines).tags.map (fun tag => .tag tag.key tag.value)
    ++ .beginMovetext :: (scanLines .start (readTags lines).body).events, ?_, ?_⟩
  · intro e he
    rcases List.mem_append.1 he with he | he
    · obtain ⟨tag, _, rfl⟩ := List.mem_map.1 he
      rfl
    · rcases List.mem_cons.1 he with rfl | he
      · rfl
      · exact Event.isInner_of_isOfMovetext (ofMovetext_scanLines _ e he)
  · simp [gameFrom]

/-- **Every transcript that is read is framed.** -/
theorem isFramed_of_mem_readGames {t : Transcript} {lines : List Line}
    (h : t ∈ readGames lines) : t.IsFramed := by
  obtain ⟨rest, rfl⟩ := exists_gameFrom_of_mem_readGames h
  exact isFramed_gameFrom rest

end Scoresheet.Pgn
