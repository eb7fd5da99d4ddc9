import Scoresheet.Proofs.Pgn.ThinnedTags
import Scoresheet.Proofs.Record.SharedAssembly
import Scoresheet.Reading.SourceReading

/-!
# What a malformed tag line costs

A malformed tag line costs no more than itself. If some of them are left out of the first game of a
text, the game tells the same story and gives the same record, in all but what is said to be wrong
with it, and the games after it are the same (`malformed_tag_lines_cost_themselves`). It makes no
difference how many there are, whether a group in such a line could be read, or how the movetext of
the game ends.
-/

namespace Scoresheet

open Text Pgn

/-! ## Records of games that are told alike -/

/-- All that a record holds but its error. -/
def Record.withoutError (r : Record) : Record := { r with parseError := none }

/-- A diagnostic shows in the error of a record and nowhere else. -/
theorem Record.build_map_withoutError (h : Headers) (movetext : Text) (outcome : Option Text)
    (diagnostic diagnostic' : Text) :
    (Record.build h movetext outcome diagnostic).map withoutError
      = (Record.build h movetext outcome diagnostic').map withoutError := by
  unfold Record.build
  cases convertTag readRating h "WhiteElo" with
  | error n => rfl
  | ok white =>
    cases convertTag readRating h "BlackElo" with
    | error n => rfl
    | ok black =>
      cases convertFirst Date.ofHeader h.dateCandidates with
      | error n => rfl
      | ok date => cases convertFirst ClockTime.ofHeader h.timeCandidates <;> rfl

/-- **A record is made from the story of a game**, whether or not the end of the game is told. -/
theorem Record.ofTranscript_of_isFramed {t : Transcript} (ht : t.IsFramed) (path : Text)
    (gameIndex : Nat) :
    Record.ofTranscript path gameIndex t = (Assembly.start.hearAll t.story).bind fun a =>
      match t.oversized? with
      | some n => .error n
      | none => a.build ((diagnostic? t path gameIndex).getD []) := by
  obtain ⟨_, _, _, hevents⟩ := ht.exists_story
  unfold Record.ofTranscript
  rw [hevents, Assembly.hearAll_append]
  cases Assembly.start.hearAll t.story with
  | error n => rfl
  | ok a =>
    rcases he : t.error with _ | fault | n
    · simp only [Transcript.oversized?, diagnostic?, he]
      show ((a.hearAll [.endGame]).bind fun b => b.build []) = a.build []
      rw [Assembly.hearAll_endGame, Assembly.finish_bind_build]
    · simp only [Transcript.oversized?, diagnostic?, he]
      rfl
    · simp only [Transcript.oversized?, he]
      rfl

section ToldAlike

variable {g g' : Transcript}

/-- **Games that are told alike** give the same record but for its error. -/
theorem Pgn.Transcript.ToldAlike.ofTranscript_congr (h : g.ToldAlike g') (hg : g.IsFramed)
    (hg' : g'.IsFramed) (path : Text) (gameIndex : Nat) :
    (Record.ofTranscript path gameIndex g).map Record.withoutError
      = (Record.ofTranscript path gameIndex g').map Record.withoutError := by
  rw [Record.ofTranscript_of_isFramed hg, Record.ofTranscript_of_isFramed hg', h.story,
    h.oversized?]
  cases Assembly.start.hearAll g'.story with
  | error n => rfl
  | ok a =>
    cases g'.oversized? with
    | some n => rfl
    | none => exact Record.build_map_withoutError a.headers a.movetext a.outcome _ _

/-- The same holds of an assembly that has heard other games. -/
theorem Pgn.Transcript.ToldAlike.play_congr (h : g.ToldAlike g') (hg : g.IsFramed)
    (hg' : g'.IsFramed) (a : Assembly) (path : Text) (gameIndex : Nat) :
    (a.play path gameIndex g).map (·.record.map Record.withoutError)
      = (a.play path gameIndex g').map (·.record.map Record.withoutError) := by
  have hrecord : ∀ t : Transcript, t.IsFramed →
      (a.play path gameIndex t).map (·.record.map Record.withoutError)
        = ((Record.ofTranscript path gameIndex t).map Record.withoutError).map some := by
    intro t ht
    have hplay := a.play_map_record path gameIndex ht
    cases hp : a.play path gameIndex t <;> cases hr : Record.ofTranscript path gameIndex t <;>
      simp_all [Except.map]
  rw [hrecord g hg, hrecord g' hg', h.ofTranscript_congr hg hg' path gameIndex]

end ToldAlike

/-! ## Sources -/

namespace SourceReading

/-- Two readings differ at most in what is said to be wrong with their first game. -/
structure SameButFirstError (r r' : SourceReading) : Prop where
  first : r.games.head?.map (·.record.withoutError) = r'.games.head?.map (·.record.withoutError)
  later : r.games.tail = r'.games.tail
  ending : r.ending = r'.ending

variable {path : Text} {fault : Option SourceError} {gameIndex : Nat} {lines rest : List Line}

theorem ofLines_of_some {t : Transcript} (h : readGame lines = some (t, rest)) :
    ofLines path fault gameIndex lines =
      if rest.isEmpty && fault.isSome && !t.isOversized then ended (endOf fault)
      else match Record.ofTranscript path gameIndex t with
        | .error numeral => ended (.oversized numeral)
        | .ok record =>
          (ofLines path fault (gameIndex + 1) rest).precededBy
            ⟨record, diagnostic? t path gameIndex⟩ := by
  rw [ofLines]
  split
  · rename_i hnone
    rw [h] at hnone
    cases hnone
  · rename_i u more hsome
    rw [h] at hsome
    cases hsome
    rfl

theorem sameButFirstError_of_toldAlike {kept : List Line} {g g' : Transcript}
    (hlines : readGame lines = some (g, rest)) (hkept : readGame kept = some (g', rest))
    (h : g.ToldAlike g') (hg : g.IsFramed) (hg' : g'.IsFramed) :
    (ofLines path fault gameIndex lines).SameButFirstError
      (ofLines path fault gameIndex kept) := by
  have hoversized : g.isOversized = g'.isOversized := by
    rw [g.isOversized_eq, g'.isOversized_eq, h.oversized?]
  have hrecord := h.ofTranscript_congr hg hg' path gameIndex
  rw [ofLines_of_some hlines, ofLines_of_some hkept, hoversized]
  split
  · exact ⟨rfl, rfl, rfl⟩
  · cases hr : Record.ofTranscript path gameIndex g with
    | error n =>
      cases hr' : Record.ofTranscript path gameIndex g' with
      | error m =>
        obtain rfl : n = m := by simpa [hr, hr', Except.map] using hrecord
        exact ⟨rfl, rfl, rfl⟩
      | ok r' => simp [hr, hr', Except.map] at hrecord
    | ok r =>
      cases hr' : Record.ofTranscript path gameIndex g' with
      | error m => simp [hr, hr', Except.map] at hrecord
      | ok r' =>
        have hsame : r.withoutError = r'.withoutError := by
          simpa [hr, hr', Except.map] using hrecord
        exact ⟨congrArg some hsame, rfl, rfl⟩

end SourceReading

/-! ## Texts -/

/-- **A malformed tag line costs no more than itself.** If malformed tag lines are left out of the
tag section of the first game of a text, and a line of the game is left, then the game tells the
same story and gives the same record in all but its error, whatever the assembly has heard before;
and the games after it are the same, with the same records. -/
theorem malformed_tag_lines_cost_themselves {t : Text} {kept : List Line}
    (hkept : Thinned (lines t) kept) (hsome : ∃ line ∈ kept, isBetweenGames line = false) :
    ∃ g g' later,
      readGames (lines t) = g :: later ∧ readGames (lines kept.flatten) = g' :: later ∧
      g.story = g'.story ∧
      (∀ (a : Assembly) (path : Text) (gameIndex : Nat),
        (a.play path gameIndex g).map (·.record.map Record.withoutError)
          = (a.play path gameIndex g').map (·.record.map Record.withoutError)) ∧
      ∀ (path : Text) (fault : Option SourceError) (gameIndex : Nat),
        (SourceReading.ofLines path fault gameIndex (lines t)).SameButFirstError
          (SourceReading.ofLines path fault gameIndex (lines kept.flatten)) := by
  obtain ⟨g, g', rest, hg, hg', halike, hframed, hframed'⟩ := hkept.readGame_congr hsome
  rw [lines_flatten_of_sublist hkept.sublist]
  refine ⟨g, g', _, readGames_of_some hg, ?_, halike.story, fun a path gameIndex =>
    halike.play_congr hframed hframed' a path gameIndex, fun path fault gameIndex =>
    SourceReading.sameButFirstError_of_toldAlike hg hg' halike hframed hframed'⟩
  rw [readGames_of_some hg', g.isOversized_eq, g'.isOversized_eq, halike.oversized?]

/-- A game with two malformed tag lines, the first of which starts with a sound group, and a game
after it. -/
def brokenTags : Text :=
  "[Event \"A\"]\n[White \"B\"] [Black C\n\n%note\n[bad\n1. e4 *\n\n[Event \"D\"]\n\n*\n".toList

/-- The same text without the malformed tag lines. -/
def mendedTags : Text := "[Event \"A\"]\n\n%note\n1. e4 *\n\n[Event \"D\"]\n\n*\n".toList

theorem malformed_tag_lines_cost_themselves_brokenTags :
    Thinned (lines brokenTags) (withoutMalformedTags (lines brokenTags)) ∧
    (∃ line ∈ withoutMalformedTags (lines brokenTags), isBetweenGames line = false) ∧
    (withoutMalformedTags (lines brokenTags)).flatten = mendedTags ∧
    ∃ g g' later, readGames (lines brokenTags) = g :: later ∧
      readGames (lines mendedTags) = g' :: later ∧ later ≠ [] ∧ g.story = g'.story ∧
      g.error = some (.malformed (.badTagLine "[White \"B\"] [Black C".toList)) ∧
      g'.error = none := by
  have hthinned := thinned_withoutMalformedTags (lines brokenTags)
  have hsome : ∃ line ∈ withoutMalformedTags (lines brokenTags), isBetweenGames line = false :=
    ⟨"1. e4 *\n".toList, by decide +kernel, by decide +kernel⟩
  have hmended : (withoutMalformedTags (lines brokenTags)).flatten = mendedTags := by
    decide +kernel
  obtain ⟨g, g', later, hg, hg', hstory, _⟩ := malformed_tag_lines_cost_themselves hthinned hsome
  rw [hmended] at hg'
  have hbroken : (readGame (lines brokenTags)).map (fun r => (r.1.error, r.2)) = some
      (some (.malformed (.badTagLine "[White \"B\"] [Black C".toList)),
        lines "[Event \"D\"]\n\n*\n".toList) := by decide +kernel
  have hsound : (readGame (lines mendedTags)).map (·.1.error) = some none := by decide +kernel
  obtain ⟨⟨t, rest⟩, ht, herror⟩ := Option.map_eq_some_iff.1 hbroken
  obtain ⟨⟨t', rest'⟩, ht', herror'⟩ := Option.map_eq_some_iff.1 hsound
  obtain ⟨herror, rfl⟩ := Prod.mk.inj herror
  obtain ⟨rfl, hlater⟩ := List.cons.inj ((readGames_of_some ht).symm.trans hg)
  obtain ⟨rfl, _⟩ := List.cons.inj ((readGames_of_some ht').symm.trans hg')
  refine ⟨hthinned, hsome, hmended, t, t', later, hg, hg', ?_, hstory, herror, herror'⟩
  have hnext : (readGame (lines "[Event \"D\"]\n\n*\n".toList)).isSome = true := by
    decide +kernel
  obtain ⟨⟨u, more⟩, hu⟩ := Option.isSome_iff_exists.1 hnext
  have hreadable : t.isOversized = false := by rw [Transcript.isOversized, herror]
  rw [← hlater, hreadable, readGames_of_some hu]
  simp

end Scoresheet
