import Scoresheet.Mainline.Basic
import Scoresheet.Record.Basic

/-!
# Assembly of records

An `Assembly` gathers the events of games into records. Of a tag that occurs twice the first value
counts; tags that no column takes are dropped. Moves are numbered as in plain movetext, and a
comment is kept in braces with its white space reduced to single spaces.

A header value that cannot be converted leaves its column empty and is noted in the record; it
does not keep the game from being recorded.
-/

namespace Scoresheet

open Text Pgn

/-! ## Headers -/

/-- The tags that are kept. -/
def knownTags : List Text :=
  ["Event", "Site", "Source", "White", "Black", "Result", "WhiteTitle", "BlackTitle", "WhiteElo",
    "BlackElo", "UTCDate", "Date", "EventDate", "UTCTime", "Time", "ECO", "Opening", "Termination",
    "TimeControl"].map String.toList

/-- The tags of a game, each key once. -/
abbrev Headers := List Tag

namespace Headers

/-- The value of a tag. -/
def value? (h : Headers) (key : Text) : Option Text := (h.find? (·.key == key)).map Tag.value

/-- Adds a known tag unless its key is there already. -/
def add (h : Headers) (tag : Tag) : Headers :=
  if knownTags.contains tag.key && (h.value? tag.key).isNone then h ++ [tag] else h

/-- The value of a tag given by name. -/
def get? (h : Headers) (key : String) : Option Text := h.value? key.toList

/-- The values that may give the date, each with the label under which it is reported: the most
complete first, and of equally complete ones in the order of precedence. -/
def dateCandidates (h : Headers) : List (Text × Text) :=
  let candidates := [("UTCDate", "UTCDate"), ("Date", "UTCDate (from Date)"),
      ("EventDate", "UTCDate (from EventDate)")].filterMap fun (key, label) =>
    match h.get? key with
    | some raw => if isBlankText raw then none else some (label.toList, raw)
    | none => none
  candidates.mergeSort fun a b => Date.completeness b.2 ≤ Date.completeness a.2

/-- The values that may give the time, each with the label under which it is reported. -/
def timeCandidates (h : Headers) : List (Text × Text) :=
  [("UTCTime", "UTCTime"), ("Time", "UTCTime (from Time)")].filterMap fun (key, label) =>
    (h.get? key).map fun raw => (label.toList, raw)

end Headers

/-! ## Conversions with notes -/

/-- A value, if there is one, and the notes on the conversions that failed. -/
structure Noted (α : Type) where
  value : Option α
  notes : List Text

/-- Converts a header value; a failure leaves a note. -/
def convert {α : Type} (conversion : Text → Text → Conversion α) (label raw : Text) :
    Except OversizedNumeral (Noted α) :=
  match conversion label raw with
  | .ok value => .ok ⟨value, []⟩
  | .error (.senseless error) => .ok ⟨none, [error.message]⟩
  | .error (.oversized numeral) => .error numeral

/-- Converts the first candidate that gives a value. -/
def convertFirst {α : Type} (conversion : Text → Text → Conversion α) :
    List (Text × Text) → Except OversizedNumeral (Noted α)
  | [] => .ok ⟨none, []⟩
  | (label, raw) :: rest => do
    let first ← convert conversion label raw
    if first.value.isSome then return first
    let more ← convertFirst conversion rest
    return ⟨more.value, first.notes ++ more.notes⟩

/-- Converts the value of a tag that may be absent. -/
def convertTag {α : Type} (conversion : Text → Text → Conversion α) (h : Headers) (key : String) :
    Except OversizedNumeral (Noted α) :=
  convertFirst conversion ((h.get? key).toList.map fun raw => (key.toList, raw))

/-! ## Records -/

/-- The record of a game from its headers, its movetext and the marker of its result. A diagnostic
on the game as a whole goes before the notes on its headers. -/
def Record.build (h : Headers) (movetext : Text) (outcome : Option Text) (diagnostic : Text) :
    Except OversizedNumeral Record := do
  let whiteElo ← convertTag readRating h "WhiteElo"
  let blackElo ← convertTag readRating h "BlackElo"
  let utcDate ← convertFirst Date.ofHeader h.dateCandidates
  let utcTime ← convertFirst ClockTime.ofHeader h.timeCandidates
  let notes := (if diagnostic.isEmpty then [] else [diagnostic])
    ++ whiteElo.notes ++ blackElo.notes ++ utcDate.notes ++ utcTime.notes
  return {
    event := h.get? "Event"
    site := h.get? "Site"
    white := h.get? "White"
    black := h.get? "Black"
    result := (h.get? "Result").or outcome
    whiteTitle := h.get? "WhiteTitle"
    blackTitle := h.get? "BlackTitle"
    whiteElo := whiteElo.value.map Int.ofNat
    blackElo := blackElo.value.map Int.ofNat
    utcDate := utcDate.value
    utcTime := utcTime.value
    eco := h.get? "ECO"
    opening := h.get? "Opening"
    termination := h.get? "Termination"
    timeControl := h.get? "TimeControl"
    movetext
    parseError := if notes.isEmpty then none else some (join [';', ' '] notes)
    source := h.get? "Source"
    outcome }

/-! ## The assembly of a record -/

/-- Where an assembly stands. -/
inductive AssemblyPhase
  | idle
  | collectingHeaders
  | collectingMoves
  | finalizingPartial
  deriving DecidableEq, Repr

def AssemblyPhase.name : AssemblyPhase → Text
  | idle => "idle".toList
  | collectingHeaders => "collecting_headers".toList
  | collectingMoves => "collecting_moves".toList
  | finalizingPartial => "finalizing_partial".toList

/-- A record in the making. -/
structure Assembly where
  phase : AssemblyPhase
  /-- The record of the last game that was finished. -/
  record : Option Record
  headers : Headers
  /-- The words of the movetext, the last one first. -/
  words : List Text
  moveCount : Nat
  outcome : Option Text

namespace Assembly

/-- An assembly before its first game. -/
def start : Assembly := ⟨.idle, none, [], [], 0, none⟩

/-- A comment as a word of the movetext. -/
def commentWord (text : Text) : Text :=
  '\x7b' :: ' ' :: join [' '] (Text.words text) ++ [' ', '\x7d']

/-- The movetext collected so far. -/
def movetext (a : Assembly) : Text := trim (join [' '] a.words.reverse)

/-- The record of what was collected. -/
def build (a : Assembly) (diagnostic : Text) : Except OversizedNumeral Record :=
  Record.build a.headers a.movetext a.outcome diagnostic

/-- Finishes the game in progress. -/
def finish (a : Assembly) (diagnostic : Text) : Except OversizedNumeral Assembly :=
  (a.build diagnostic).map fun record => { a with phase := .idle, record := some record }

/-- Takes one event; the assembly stays as it is if the record cannot be built. -/
def hear (a : Assembly) : Event → Except OversizedNumeral Assembly
  | .beginTags => .ok { start with phase := .collectingHeaders }
  | .tag key value => .ok { a with headers := a.headers.add ⟨key, value⟩ }
  | .beginMovetext => .ok { a with phase := .collectingMoves }
  | .san token =>
    .ok { a with
      words := Mainline.moveWord a.moveCount token :: a.words
      moveCount := a.moveCount + 1 }
  | .comment text => .ok { a with words := commentWord text :: a.words }
  | .outcome marker => .ok { a with outcome := some marker }
  | .endGame => a.finish []
  | .partialComment _ | .nag _ | .beginVariation => .ok a

/-- Takes events one after another. -/
def hearAll (a : Assembly) : List Event → Except OversizedNumeral Assembly
  | [] => .ok a
  | e :: es => do (← a.hear e).hearAll es

/-- The assembly while it finishes a game that could not be read to its end. -/
def finalizing (a : Assembly) : Assembly := { a with phase := .finalizingPartial }

/-- Finishes a game that could not be read to its end, with a diagnostic. -/
def finalizePartial (a : Assembly) (diagnostic : Text) : Except OversizedNumeral Assembly :=
  a.finalizing.finish diagnostic

end Assembly

/-! ## The record of a game -/

/-- What is said about a game that could not be read to its end. -/
def stageDiagnostic (fault : SyntaxFault) (path : Text) (gameIndex : Nat) : Text :=
  "Parser-stage error: stage=".toList ++ fault.stage.name ++ "; file='".toList ++ path
    ++ "'; game_index=".toList ++ decimal gameIndex ++ "; error=".toList ++ fault.message

/-- What is said about a game, the `gameIndex`-th of the file at `path`, if it could not be read to
its end. -/
def diagnostic? (t : Transcript) (path : Text) (gameIndex : Nat) : Option Text :=
  match t.error with
  | some (.malformed fault) => some (stageDiagnostic fault path gameIndex)
  | _ => none

/-- The record of a game, the `gameIndex`-th of the file at `path`. -/
def Record.ofTranscript (path : Text) (gameIndex : Nat) (t : Transcript) :
    Except OversizedNumeral Record := do
  let a ← Assembly.start.hearAll t.events
  match t.error with
  | some (.oversizedNag numeral) => .error numeral
  | _ => a.build ((diagnostic? t path gameIndex).getD [])

/-- The records of games that follow one another, the first of them numbered `gameIndex`. -/
def Record.ofTranscripts (path : Text) (gameIndex : Nat) :
    List Transcript → Except OversizedNumeral (List Record)
  | [] => .ok []
  | t :: ts => do
    let record ← Record.ofTranscript path gameIndex t
    let more ← Record.ofTranscripts path (gameIndex + 1) ts
    return record :: more

end Scoresheet
