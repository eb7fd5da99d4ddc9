import Scoresheet.Proofs.Pgn.Boundary
import Scoresheet.Proofs.Reading.Tallies
import Scoresheet.Proofs.Record.BadValues
import Scoresheet.Proofs.Text.Joining

/-!
# The games of a source

A source is read game by game. If its text breaks off in a fault, the last game is lost, since a
game is known to be complete only when the next one starts or the text comes to its proper end. All
other games are read, each with the number of its place in the source
(`Source.Opening.forall₂_isOf`), unless a game has a numeral of too many digits.
-/

namespace Scoresheet

open Text Pgn

/-! ## What is left behind a game -/

namespace Pgn

/-- A movetext that is read to its end leaves nothing behind or lines that open a tag pair. -/
theorem opensTag_rest_scanLines {s : Cursor} {lines more : List Line} {line : Line}
    (hread : ∀ n, (scanLines s lines).ending ≠ .oversizedNag n)
    (h : (scanLines s lines).rest = line :: more) : opensTag line = true := by
  induction lines generalizing s with
  | nil =>
    rw [scanLines] at h
    split at h <;> simp at h
  | cons first lines ih =>
    rw [scanLines] at h hread
    split at h
    · rename_i ho
      rw [Bool.and_eq_true] at ho
      rw [← (List.cons.inj h).1]
      exact ho.2
    · rename_i ho
      rw [if_neg ho] at hread
      split at h
      · rename_i he
        rw [if_pos he] at hread
        exact ih hread h
      · rename_i he
        rw [if_neg he] at hread
        cases hscan : scanLine s [] first with
        | mk events stop =>
          rw [hscan] at h hread
          cases stop with
          | endOfLine s' => exact ih hread h
          | nextGame rest =>
            rw [← (List.cons.inj h).1]
            exact opensTag_of_nextGame hscan
          | oversizedNag n => exact absurd rfl (hread n)

/-- Behind a game either nothing is left or there is another game. -/
theorem readGame_rest_ne_none {lines rest : List Line} {t : Transcript}
    (h : readGame lines = some (t, rest)) (hover : t.isOversized = false) (hrest : rest ≠ []) :
    readGame rest ≠ none := by
  obtain ⟨line, more, rfl⟩ := List.exists_cons_of_ne_nil hrest
  have hgame := (gameFrom_of_readGame h).1
  rw [gameFrom, Prod.mk.injEq] at hgame
  have hopens : opensTag line = true := by
    refine opensTag_rest_scanLines (fun n hn => ?_) hgame.2
    rw [← hgame.1, Transcript.isOversized, hn] at hover
    simp [gameError] at hover
  have hbetween : isBetweenGames line = false := by
    cases hb : isBetweenGames line with
    | false => rfl
    | true =>
      rw [opensTag_of_isBetweenGames hb] at hopens
      exact absurd hopens (by simp)
  rw [readGame_of_exists ⟨line, List.mem_cons_self, hbetween⟩]
  simp

/-- The games of lines that are known to be complete: if the text breaks off behind the lines, its
last game is lost. -/
def completeGames (breaksOff : Bool) (lines : List Line) : List Transcript :=
  if breaksOff then (readGames lines).dropLast else readGames lines

theorem completeGames_of_none {breaksOff : Bool} {lines : List Line} (h : readGame lines = none) :
    completeGames breaksOff lines = [] := by
  rw [completeGames, readGames_of_none h]
  exact ite_self _

theorem completeGames_of_some {breaksOff : Bool} {lines rest : List Line} {t : Transcript}
    (h : readGame lines = some (t, rest)) (hover : t.isOversized = false) :
    completeGames breaksOff lines
      = if rest.isEmpty && breaksOff then [] else t :: completeGames breaksOff rest := by
  have hgames : readGames lines = t :: readGames rest := by
    rw [readGames_of_some h, hover]
    rfl
  unfold completeGames
  rw [hgames]
  cases breaksOff with
  | false =>
    rw [Bool.and_false]
    rfl
  | true =>
    cases rest with
    | nil =>
      rw [readGames_of_none (show readGame [] = none from rfl)]
      rfl
    | cons line more =>
      have hne : readGames (line :: more) ≠ [] := by
        obtain ⟨r, hr⟩ := Option.ne_none_iff_exists'.1 (readGame_rest_ne_none h hover (by simp))
        rw [readGames_of_some hr]
        simp
      exact List.dropLast_cons_of_ne_nil hne

end Pgn

/-! ## Records of games -/

theorem stageDiagnostic_ne_nil (fault : SyntaxFault) (path : Text) (gameIndex : Nat) :
    stageDiagnostic fault path gameIndex ≠ [] := by
  unfold stageDiagnostic
  simp only [List.append_assoc]
  exact List.append_ne_nil_of_left_ne_nil (by decide) _

theorem Record.exists_build_of_ofTranscript {path : Text} {gameIndex : Nat} {t : Transcript}
    {r : Record} (h : Record.ofTranscript path gameIndex t = .ok r) :
    ∃ a : Assembly, a.build ((diagnostic? t path gameIndex).getD []) = .ok r := by
  unfold Record.ofTranscript at h
  cases ha : Assembly.start.hearAll t.events with
  | error n => simp [ha, bind, Except.bind] at h
  | ok a =>
    refine ⟨a, ?_⟩
    rcases he : t.error with _ | fault | n
    · simpa [ha, bind, Except.bind, he] using h
    · simpa [ha, bind, Except.bind, he] using h
    · simp [ha, bind, Except.bind, he] at h

theorem Record.not_isOversized_of_ofTranscript {path : Text} {gameIndex : Nat} {t : Transcript}
    {r : Record} (h : Record.ofTranscript path gameIndex t = .ok r) : t.isOversized = false := by
  unfold Record.ofTranscript at h
  unfold Transcript.isOversized
  cases ha : Assembly.start.hearAll t.events with
  | error n => simp [ha, bind, Except.bind] at h
  | ok a =>
    rcases he : t.error with _ | fault | n
    · rfl
    · rfl
    · simp [ha, bind, Except.bind, he] at h

/-! ## One source -/

/-- A game that is read was made from a transcript with its number, in the file at `path`. -/
structure GameReading.IsOf (path : Text) (numbered : Transcript × Nat) (game : GameReading) :
    Prop where
  record : Record.ofTranscript path numbered.2 numbered.1 = .ok game.record
  diagnostic : game.diagnostic = diagnostic? numbered.1 path numbered.2
  /-- The record of a malformed game says first at which place of its file it stands. -/
  parseError : ∀ fault, numbered.1.error = some (.malformed fault) →
    ∃ more, game.record.parseError = some (stageDiagnostic fault path numbered.2 ++ more)

theorem Record.parseError_of_malformed {path : Text} {gameIndex : Nat} {t : Transcript}
    {r : Record} (h : Record.ofTranscript path gameIndex t = .ok r) {fault : SyntaxFault}
    (hfault : t.error = some (.malformed fault)) :
    ∃ more, r.parseError = some (stageDiagnostic fault path gameIndex ++ more) := by
  obtain ⟨a, ha⟩ := Record.exists_build_of_ofTranscript h
  have hnotes := Record.parseError_of_build ha
  have hdiagnostic :
      diagnostic? t path gameIndex = some (stageDiagnostic fault path gameIndex) := by
    rw [diagnostic?, hfault]
  have hne : (stageDiagnostic fault path gameIndex).isEmpty = false := by
    rw [List.isEmpty_eq_false_iff]
    exact stageDiagnostic_ne_nil fault path gameIndex
  simp only [hdiagnostic, Option.getD_some, Headers.notes, hne, Bool.false_eq_true, if_false,
    List.singleton_append, List.isEmpty_cons] at hnotes
  rw [hnotes]
  cases a.headers.complaints with
  | nil => exact ⟨[], by rw [join_singleton, List.append_nil]⟩
  | cons note notes => exact ⟨_, by rw [join_cons (by simp)]⟩

namespace SourceReading

variable {path : Text} {fault : Option SourceError}

/-- **Lines give the records of their complete games**, numbered one after another. -/
theorem ofLines_of_isConvertible {gameIndex : Nat} {lines : List Line} :
    (ofLines path fault gameIndex lines).IsConvertible →
    (ofLines path fault gameIndex lines).ending = endOf fault ∧
      List.Forall₂ (GameReading.IsOf path) ((completeGames fault.isSome lines).zipIdx gameIndex)
        (ofLines path fault gameIndex lines).games := by
  fun_induction ofLines path fault gameIndex lines with
  | case1 gameIndex lines h =>
    intro _
    rw [completeGames_of_none h]
    exact ⟨rfl, .nil⟩
  | case2 gameIndex lines t rest h hlost =>
    intro _
    simp only [Bool.and_eq_true, Bool.not_eq_true'] at hlost
    rw [completeGames_of_some h hlost.2, if_pos (by simp [hlost])]
    exact ⟨rfl, .nil⟩
  | case3 gameIndex lines t rest h hlost n hn =>
    intro hconv
    exact absurd rfl (hconv n)
  | case4 gameIndex lines t rest h hlost record hrecord ih =>
    intro hconv
    obtain ⟨hending, hgames⟩ := ih hconv
    have hover : t.isOversized = false := Record.not_isOversized_of_ofTranscript hrecord
    have hcomplete : ¬(rest.isEmpty && fault.isSome) = true := by simpa [hover] using hlost
    rw [completeGames_of_some h hover, if_neg hcomplete, List.zipIdx_cons]
    refine ⟨hending, .cons ⟨hrecord, rfl, fun f hf => ?_⟩ hgames⟩
    exact Record.parseError_of_malformed hrecord hf

/-- **Lines are convertible** if neither the headers nor the annotations of a game have numerals
of too many digits. -/
theorem isConvertible_ofLines {gameIndex : Nat} {lines : List Line}
    (h : ∀ t ∈ readGames lines, t.isOversized = false ∧ ¬t.headers.IsOversized) :
    (ofLines path fault gameIndex lines).IsConvertible := by
  have hend : ∀ n, endOf fault ≠ .oversized n := by
    intro n
    cases fault <;> simp [endOf]
  fun_induction ofLines path fault gameIndex lines with
  | case1 => exact hend
  | case2 => exact hend
  | case3 gameIndex lines t rest hread hlost n hn =>
    have hmem : t ∈ readGames lines := by
      rw [readGames_of_some hread]
      exact List.mem_cons_self
    obtain ⟨r, hr⟩ := (Record.exists_ofTranscript_iff path gameIndex
      (isFramed_of_mem_readGames hmem)).2 (h t hmem)
    rw [hn] at hr
    cases hr
  | case4 gameIndex lines t rest hread hlost record hrecord ih =>
    rw [readGames_of_some hread] at h
    have hover := (h t List.mem_cons_self).1
    refine ih fun u hu => h u ?_
    rw [hover]
    exact List.mem_cons_of_mem _ hu

end SourceReading

/-! ## Sources that are opened -/

/-- What opening a source gives. -/
abbrev Source.Opening := Except SourceError Source.Content

namespace Source.Opening

/-- The games that can be read of a source. -/
def games : Source.Opening → List Transcript
  | .error _ => []
  | .ok content => completeGames content.fault.isSome content.lines

/-- The source cannot be opened, or not be read to its end. -/
def isBroken : Source.Opening → Bool
  | .error _ => true
  | .ok content => content.fault.isSome

/-- What is read of the source at a path. -/
def read (compression : Compression) (path : Text) : Source.Opening → SourceReading
  | .error error => .ended (.unusable error)
  | .ok content =>
    .ofLines path (content.fault.map (.unreadable compression path)) 1 content.lines

theorem readAt_eq (tree : FileTree) (compression : Compression) (path : Text) :
    Source.readAt tree compression path
      = read compression path (Source.openAt tree compression path) := by
  unfold Source.readAt
  cases Source.openAt tree compression path <;> rfl

variable {compression : Compression} {path : Text} {opening : Source.Opening}

/-- The games of a source are those of its text, numbered from 1. -/
theorem forall₂_isOf (h : (read compression path opening).IsConvertible) :
    List.Forall₂ (GameReading.IsOf path) (opening.games.zipIdx 1)
      (read compression path opening).games := by
  cases opening with
  | error error => exact .nil
  | ok content =>
    have hgames := (SourceReading.ofLines_of_isConvertible h).2
    rw [Option.isSome_map] at hgames
    exact hgames

end Source.Opening

end Scoresheet
