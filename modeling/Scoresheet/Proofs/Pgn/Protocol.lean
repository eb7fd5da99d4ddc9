import Scoresheet.Proofs.Pgn.Boundary
import Scoresheet.Proofs.Pgn.Hearing
import Scoresheet.Proofs.Pgn.Utterance

/-!
# The order of events

Whatever a text holds, the events of a game come in one order: tags, then moves with what belongs to
them, then at most one result, and after that nothing but comments (`Telling`). How they end depends
on what is wrong with the game, and that is a matter of its brackets and of its tag lines.
`hearGame_protocol` puts both together.
-/

namespace Scoresheet.Pgn

open Text

variable {σ : Type}

/-! ## Games -/

/-- The events of a game by their place in it. -/
structure Telling where
  tags : List Tag
  moves : List Event
  result : List Event
  ending : List Event

namespace Telling

def events (p : Telling) : List Event :=
  .beginTags :: p.tags.map (fun tag => .tag tag.key tag.value) ++ .beginMovetext :: p.moves
    ++ p.result ++ p.ending

/-- Every event stands in its place and holds what it may hold. -/
structure IsOrderly (p : Telling) : Prop where
  moves : ∀ e ∈ p.moves, e.isBeforeResult = true
  result : IsResult p.result
  isWellSpelled : ∀ e ∈ p.events, e.IsWellSpelled

theorem isOrderly {tags : List Tag} {moves result ending : List Event}
    (hmoves : ∀ e ∈ moves, e.isBeforeResult = true) (hresult : IsResult result)
    (hspelled : ∀ e ∈ moves ++ result, e.IsWellSpelled) (hending : ∀ e ∈ ending, e.IsWellSpelled) :
    (⟨tags, moves, result, ending⟩ : Telling).IsOrderly := by
  refine ⟨hmoves, hresult, ?_⟩
  intro e he
  simp only [events, List.mem_append, List.mem_cons, List.mem_map] at he
  rcases he with (((rfl | ⟨tag, _, rfl⟩) | rfl | he) | he) | he
  · trivial
  · trivial
  · trivial
  · exact hspelled e (List.mem_append_left _ he)
  · exact hspelled e (List.mem_append_right _ he)
  · exact hending e he

end Telling

/-- A scan that ends in a comment is reported as such, and nothing else is. -/
theorem error_gameFrom_eq_unterminatedComment_iff (lines : List Line) :
    (gameFrom lines).1.error = some (.malformed .unterminatedComment) ↔
      (scanLines .start (readTags lines).body).ending = .unterminatedComment := by
  show gameError _ _ = _ ↔ _
  cases (scanLines .start (readTags lines).body).ending with
  | complete => cases (readTags lines).fault <;> simp [gameError]
  | unterminatedComment => simp [gameError]
  | oversizedNag e => simp [gameError]

/-- The events of a game are in order, and how they end depends on what was wrong. -/
theorem exists_telling (lines : List Line) :
    ∃ p : Telling, p.IsOrderly ∧ (gameFrom lines).1.events = p.events ∧
      ((gameFrom lines).1.error = none → p.ending = [.endGame]) ∧
      ((gameFrom lines).1.error = some (.malformed .unterminatedComment) →
        IsCutOff (openAtEnd lines) p.ending) ∧
      (∀ line, (gameFrom lines).1.error = some (.malformed (.badTagLine line)) →
        p.ending = []) := by
  obtain ⟨es, finished, ending, hevents, hutters, hcut, hwhole⟩ :=
    utters_scanLines (readTags lines).body (s := .start) (Cursor.isSound_of_eq_none rfl)
  obtain ⟨moves, result, rfl, hmoves, hresult⟩ := hutters.exists_result
  have hgame : (gameFrom lines).1.events = .beginTags ::
      (readTags lines).tags.map (fun tag => .tag tag.key tag.value)
        ++ .beginMovetext :: (scanLines .start (readTags lines).body).events
        ++ (if (gameFrom lines).1.error.isNone then [.endGame] else []) := rfl
  rw [← error_gameFrom_eq_unterminatedComment_iff, ← openAtEnd_eq] at hcut
  rw [Ne, ← error_gameFrom_eq_unterminatedComment_iff] at hwhole
  by_cases hdone : (gameFrom lines).1.error = none
  · obtain rfl : ending = [] := hwhole (by simp [hdone])
    refine ⟨⟨(readTags lines).tags, moves, result, [.endGame]⟩,
      Telling.isOrderly hmoves hresult hutters.isWellSpelled (by simp [Event.IsWellSpelled]),
      ?_, fun _ => rfl, by simp [hdone], by simp [hdone]⟩
    rw [hgame, hevents, hdone]
    simp [Telling.events]
  · have hnone : (gameFrom lines).1.error.isNone = false :=
      Option.isNone_eq_false_iff.2 (Option.ne_none_iff_isSome.1 hdone)
    refine ⟨⟨(readTags lines).tags, moves, result, ending⟩,
      Telling.isOrderly hmoves hresult hutters.isWellSpelled ?_, ?_, fun h => absurd h hdone,
      hcut, fun line h => hwhole (by simp [h])⟩
    · by_cases hunterminated :
          (gameFrom lines).1.error = some (.malformed .unterminatedComment)
      · have hcut := hcut hunterminated
        unfold IsCutOff at hcut
        split at hcut
        · obtain ⟨text, htext, rfl⟩ := hcut
          exact List.forall_mem_singleton.2 htext
        · rw [hcut]
          simp
      · rw [hwhole hunterminated]
        simp
    · rw [hgame, hevents, hnone]
      simp [Telling.events]

/-- **What a game reports is well spelled**, whatever the text was. -/
theorem isWellSpelled_of_mem_readGames {t : Transcript} {lines : List Line}
    (h : t ∈ readGames lines) : ∀ e ∈ t.events, e.IsWellSpelled := by
  obtain ⟨rest, rfl⟩ := exists_gameFrom_of_mem_readGames h
  obtain ⟨p, hp, hevents, _⟩ := exists_telling rest
  rw [hevents]
  exact hp.isWellSpelled

/-- No game is left if only lines that belong to no game are. -/
theorem hearGame_eq_none_iff (l : Listener σ) (s : σ) (lines : List Line) :
    hearGame l s lines = none ↔
      ∀ line ∈ lines, isBlankText line = true ∨ isEscapeLine line = true := by
  rw [hearGame_eq, Option.map_eq_none_iff]
  constructor
  · intro h line hline
    by_contra hgame
    rw [readGame_of_exists ⟨line, hline, by simpa [isBetweenGames] using hgame⟩] at h
    simp at h
  · intro h
    rw [readGame, List.dropWhile_eq_nil_iff.2 fun line hline => by
      simpa [isBetweenGames] using h line hline]

/-- No lines are left for later games. -/
theorem hearGame_linesAfter_nil (l : Listener σ) (s : σ) (gs : List Hearer) :
    hearGame l s (linesAfter gs []) = none := by
  have hnil : linesAfter gs [] = [] := by cases gs <;> rfl
  rw [hnil]
  rfl

/-- The input ends, with a comment open at its end. -/
def EndsInComment (lines rest : List Line) : Prop :=
  rest = [] ∧ (openAtEnd lines).comment = true

/-- **The protocol of a game.** A listener that never stops is told the events of a game in order,
each well spelled. If the input ends inside a comment, and only then, the last of them is the text
of that comment, unless it lies in a variation, and no game is left; otherwise, if a tag line is
malformed, nothing more is told; otherwise the game is told to end. No game is found exactly if the
lines that are left belong to none. -/
theorem hearGame_protocol {l : Listener σ} (hl : l.NeverStops) (s : σ) (lines : List Line) :
    playGame l s lines =
      (hearGame l s lines).map (fun h => ((h.hearing.state, h.error), h.rest)) ∧
    (hearGame l s lines = none ↔
      ∀ line ∈ lines, isBlankText line = true ∨ isEscapeLine line = true) ∧
    ∀ h, hearGame l s lines = some h → (∀ n, h.error ≠ some (.oversizedNag n)) →
      ∃ p : Telling, p.IsOrderly ∧ h.hearing.events = p.events ∧
        (h.error = none ∧ ¬EndsInComment lines h.rest ∧ badTagLine? lines = none ∧
            p.ending = [.endGame] ∨
          h.error = some (.malformed .unterminatedComment) ∧ EndsInComment lines h.rest ∧
            IsCutOff (openAtEnd lines) p.ending ∧
            (∀ gs : List Hearer, ∀ g : Hearer,
              hearGame g.listener g.state (linesAfter gs h.rest) = none) ∨
          (∃ line, badTagLine? lines = some line ∧
              h.error = some (.malformed (.badTagLine (trim line)))) ∧
            ¬EndsInComment lines h.rest ∧ p.ending = []) := by
  refine ⟨playGame_eq_hearGame l s lines, hearGame_eq_none_iff l s lines, ?_⟩
  intro h hh hread
  rw [hearGame_eq] at hh
  obtain ⟨⟨t, rest⟩, hr, rfl⟩ := Option.map_eq_some_iff.1 hh
  obtain ⟨hall, hgo⟩ := l.exchange_of_findIdx?_eq_none t.events s (hl.findIdx?_exchange t.events s)
  have herror : (t.playTo l s).2 = t.error := by rw [t.playTo_snd, hgo]
  have hevents : ((Hearing.start s).tellAll l t.events).events = t.events := by
    rw [Listener.tellAll_start]
    exact hall
  simp only [herror] at hread
  simp only [herror, hevents]
  obtain ⟨hgame, _⟩ := gameFrom_of_readGame hr
  have hover : (gameFrom lines).1.isOversized = false := by
    rw [hgame]
    unfold Transcript.isOversized
    split
    · rename_i n hn
      exact absurd hn (hread n)
    · rfl
  have hfault := error_gameFrom hover
  obtain ⟨p, hp, hpevents, hdone, hcut, hbad⟩ := exists_telling lines
  rw [hgame] at hpevents hdone hcut hbad hfault
  refine ⟨p, hp, hpevents, ?_⟩
  by_cases hends : EndsInComment lines rest
  · have hfault : t.error = some (.malformed .unterminatedComment) := by
      rw [hfault, if_pos (by exact hends)]
    refine Or.inr (Or.inl ⟨hfault, hends, hcut hfault, ?_⟩)
    intro gs g
    rw [hends.1]
    exact hearGame_linesAfter_nil g.listener g.state gs
  · rw [if_neg (by exact hends)] at hfault
    cases hline : badTagLine? lines with
    | none =>
      rw [hline] at hfault
      exact Or.inl ⟨hfault, hends, rfl, hdone hfault⟩
    | some line =>
      rw [hline] at hfault
      exact Or.inr (Or.inr ⟨⟨line, rfl, hfault⟩, hends, hbad _ hfault⟩)

/-- A malformed tag line, and a comment in a variation that the input cuts off. -/
def cutOff : List Line := lines "[White A]\n\n1. e4 \x7bgood\x7d (1. d4 \x7band".toList

theorem hearGame_protocol_cutOff :
    patient.NeverStops ∧ ∃ h, hearGame patient () cutOff = some h ∧
      (∀ n, h.error ≠ some (.oversizedNag n)) ∧ h.error = some (.malformed .unterminatedComment) ∧
      ∃ p : Telling, p.IsOrderly ∧ h.hearing.events = p.events ∧ p.ending = [] := by
  have hpatient : patient.NeverStops := fun _ _ => rfl
  have herror : (hearGame patient () cutOff).map Heard.error
      = some (some (.malformed .unterminatedComment)) := by decide +kernel
  have hparens : (openAtEnd cutOff).parens = 1 := by decide +kernel
  obtain ⟨h, hh, he⟩ := Option.map_eq_some_iff.1 herror
  have hread : ∀ n, h.error ≠ some (.oversizedNag n) := by simp [he]
  obtain ⟨_, _, hgame⟩ := hearGame_protocol hpatient () cutOff
  obtain ⟨p, hp, hevents, hends⟩ := hgame h hh hread
  refine ⟨hpatient, h, hh, hread, he, p, hp, hevents, ?_⟩
  rcases hends with ⟨hnone, _⟩ | ⟨_, _, hcut, _⟩ | ⟨_, _, hnil⟩
  · simp [he] at hnone
  · simpa [IsCutOff, hparens] using hcut
  · exact hnil

end Scoresheet.Pgn
