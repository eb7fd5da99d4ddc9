import Scoresheet.Pgn.Movetext
import Scoresheet.Pgn.Tag

/-!
# Games

`readGame` takes one game off a list of lines: the events of the game, what was wrong with it, and
the lines that belong to the games after it. A malformed tag line is reported only after the
movetext has been read, so nothing that follows it is lost; a comment that the end of the input
cuts off is reported instead of it.

Each game read leaves less of the input (`remaining_readGame_lt`), which is why `readGames` ends.

A `Listener` follows the events of a game and may stop listening. What it answers has no influence
on the lines that are given back.
-/

namespace Scoresheet.Pgn

open Text

/-! ## Tag section -/

/-- The tag section of a game and the lines of its movetext. -/
structure TagSection where
  tags : List Tag
  /-- The first malformed tag line. -/
  fault : Option Text
  body : List Line
  deriving DecidableEq, Repr

/-- Reads tag lines up to the first line that is neither a tag line nor blank nor passed over. -/
def readTags : List Line → TagSection
  | [] => ⟨[], none, []⟩
  | line :: lines =>
    if opensTag line then
      let rest := readTags lines
      match Tag.readLine? (trim line) with
      | some tags => { rest with tags := tags ++ rest.tags }
      | none => { rest with fault := some (trim line) }
    else if isBlankText line || isEscapeLine line then readTags lines
    else ⟨[], none, line :: lines⟩

theorem remaining_readTags_le (lines : List Line) :
    remaining (readTags lines).body ≤ remaining lines := by
  fun_induction readTags lines with
  | case1 => exact Nat.le_refl _
  | case2 line lines _ rest tags _ ih =>
    rw [remaining_cons]
    simp only [rest]
    omega
  | case3 line lines _ rest _ ih =>
    rw [remaining_cons]
    simp only [rest]
    omega
  | case4 line lines _ _ ih =>
    rw [remaining_cons]
    omega
  | case5 => exact Nat.le_refl _

/-! ## One game -/

/-- The events of a game, and what was wrong with it. -/
structure Transcript where
  events : List Event
  error : Option ReadError
  deriving DecidableEq, Repr

/-- What was wrong with a game: a fault of the movetext goes before one of the tag section. -/
def gameError (tagFault : Option Text) : MovetextEnd → Option ReadError
  | .complete => tagFault.map fun line => .malformed (.badTagLine line)
  | .unterminatedComment => some (.malformed .unterminatedComment)
  | .oversizedNag e => some (.oversizedNag e)

/-- The game whose text starts at the first of the lines, and the lines after it. -/
def gameFrom (lines : List Line) : Transcript × List Line :=
  let head := readTags lines
  let body := scanLines .start head.body
  let error := gameError head.fault body.ending
  (⟨.beginTags :: head.tags.map (fun tag => .tag tag.key tag.value)
      ++ .beginMovetext :: body.events ++ (if error.isNone then [.endGame] else []), error⟩,
    body.rest)

/-- A line that belongs to no game. -/
def isBetweenGames (line : Line) : Bool := isBlankText line || isEscapeLine line

/-- Reads the next game; none if only lines that belong to no game are left. -/
def readGame (lines : List Line) : Option (Transcript × List Line) :=
  match lines.dropWhile isBetweenGames with
  | [] => none
  | line :: lines => some (gameFrom (line :: lines))

theorem remaining_dropWhile_le (p : Line → Bool) (lines : List Line) :
    remaining (lines.dropWhile p) ≤ remaining lines := by
  induction lines with
  | nil => exact Nat.le_refl _
  | cons line lines ih =>
    rw [List.dropWhile_cons]
    split
    · rw [remaining_cons]
      omega
    · exact Nat.le_refl _

/-- Reading a game leaves less to be read. -/
theorem remaining_readGame_lt {lines rest : List Line} {t : Transcript}
    (h : readGame lines = some (t, rest)) : remaining rest < remaining lines := by
  unfold readGame at h
  split at h
  · simp at h
  · rename_i line ls hd
    have hdrop := remaining_dropWhile_le isBetweenGames lines
    have hline : isBetweenGames line = false := by
      have : isBetweenGames ((lines.dropWhile isBetweenGames).head (by rw [hd]; simp)) = false :=
        List.head_dropWhile_not _ _
      simpa [hd] using this
    rw [hd] at hdrop
    simp only [gameFrom, Option.some.injEq, Prod.mk.injEq] at h
    rw [← h.2]
    refine Nat.lt_of_lt_of_le ?_ hdrop
    by_cases ho : opensTag line
    · refine Nat.lt_of_le_of_lt (remaining_scanLines_le _ _) ?_
      have hb := remaining_readTags_le ls
      rw [readTags, if_pos ho, remaining_cons]
      split <;> (simp only; omega)
    · have hbody : (readTags (line :: ls)).body = line :: ls := by
        simp only [isBetweenGames] at hline
        simp [readTags, ho, hline]
      rw [hbody]
      exact remaining_scanLines_lt rfl (by simpa using ho)

/-- A numeral in the game could not be converted; reading does not go on after that. -/
def Transcript.isOversized (t : Transcript) : Bool :=
  match t.error with
  | some (.oversizedNag _) => true
  | _ => false

/-- All games of a list of lines. -/
def readGames (lines : List Line) : List Transcript :=
  match _h : readGame lines with
  | none => []
  | some (t, rest) => t :: if t.isOversized then [] else readGames rest
termination_by remaining lines
decreasing_by exact remaining_readGame_lt _h

/-! ## Listeners -/

/-- Whether a listener wants to hear more of a game. -/
inductive Flow
  | goOn
  | stop
  deriving DecidableEq, Repr

/-- A listener takes the events of a game one by one. -/
structure Listener (σ : Type) where
  hear : σ → Event → σ × Flow

/-- The listener's state after the events it wanted to hear, and whether it stopped. -/
def Listener.run {σ : Type} (l : Listener σ) (s : σ) : List Event → σ × Flow
  | [] => (s, .goOn)
  | e :: es => match l.hear s e with
    | (s, .goOn) => l.run s es
    | (s, .stop) => (s, .stop)

/-- What a listener makes of a game. A listener that stopped does not hear of a malformed text. -/
def Transcript.playTo {σ : Type} (t : Transcript) (l : Listener σ) (s : σ) :
    σ × Option ReadError :=
  match l.run s t.events, t.error with
  | (s, .stop), some (.malformed _) => (s, none)
  | (s, _), error => (s, error)

/-- Plays the next game of a list of lines to a listener; none if there is no game left. -/
def playGame {σ : Type} (l : Listener σ) (s : σ) (lines : List Line) :
    Option ((σ × Option ReadError) × List Line) :=
  (readGame lines).map fun (t, rest) => (t.playTo l s, rest)

end Scoresheet.Pgn
