import Scoresheet.TimeControl.Template

/-!
# Time controls in free text

Where no template fits the whole of a wording, parts of it are looked for: numerals with a unit of
minutes or seconds, and a number of seconds for each move. Of several numerals with one unit the
last counts. Two stages are understood if a number of minutes for some moves, a number of minutes
for the rest and an increment are all found.
-/

namespace Scoresheet

open Text

namespace TimeControl

/-- The numerals of a text, each with what follows it. `afterDigit` says that the character before
was a digit, so that no new numeral starts. -/
def numeralsOf (afterDigit : Bool) : Text → List (Text × Text)
  | [] => []
  | c :: cs =>
    if isDecimalDigit c then
      (if afterDigit then [] else (digits? (c :: cs)).toList) ++ numeralsOf true cs
    else numeralsOf false cs

/-- What follows a number of minutes that holds for some moves: the number of moves. -/
def forMoves? (t : Text) : Option Text := do
  let t ← oneOf? minuteUnits t
  match word? "for" t with
  | some t =>
    let (moves, t) ← number? t
    (oneOf? ["move", "mv"] t).map fun _ => moves
  | none =>
    let t ← word? "/" t
    (number? t).map Prod.fst

/-- The minutes and the number of moves of the first stage. -/
def firstStage? (t : Text) : Option (Text × Text) :=
  (numeralsOf false t).findSome? fun (minutes, rest) =>
    (forMoves? rest).map fun moves => (minutes, moves)

/-- Takes a sign or word for another stage off a text. -/
def another? : Text → Option Text
  | '+' :: t => some t
  | ',' :: t => some t
  | t => ("then".toList.isPrefixOf? t).bind fun rest =>
      if rest.head?.any isBlank then some rest else none

/-- The minutes of another stage, on the place where they are announced. -/
def restHere? (t : Text) : Option Text := do
  let t ← another? t
  let (minutes, t) ← number? t
  (word? "m" t).map fun _ => minutes

/-- The seconds that are added with each move and what follows, on the place where they stand. -/
def incrementHere? (t : Text) : Option (Text × Text) := do
  let (seconds, t) ← digits? t
  let t ← oneOf? secondUnits t
  (addedPerMove? t).map fun rest => (seconds, rest)

/-- The text with a space for each increment in it. -/
def withoutIncrements (t : Text) : Text :=
  substitute (fun t => (incrementHere? t).map fun (_, rest) => ([' '], t.length - rest.length)) 0 t

/-- The numerals of a text that have one of some units, which end at a word boundary. -/
def numeralsWith (units : List String) (t : Text) : List Text :=
  (numeralsOf false t).filterMap fun (numeral, rest) =>
    (oneOf? units rest).bind fun after => (boundary? false after).map fun _ => numeral

/-- The number of the last of some numerals; none if there is none or if it is out of range. All
of them are read. -/
def readLast (numerals : List Text) : Except OversizedNumeral (Option Nat) := do
  return ((← numerals.mapM readCount).getLast?).join

/-- Two stages with an increment. -/
def inferStages (t : Text) : Attempt :=
  match firstStage? t, search restHere? t, search incrementHere? t with
  | some (base, moves), some rest, some (increment, _) =>
    guessFrom (some [base, moves, rest, increment]) fun
      | [base, moves, rest, increment] =>
        some (.withRest .freeTextFideClassical moves base rest increment)
      | _ => none
  | _, _, _ => .ok none

/-- Minutes, seconds and an increment. An increment that is out of range is dropped. -/
def inferParts (t : Text) : Attempt := do
  if !(holds "min" t || holds "sek" t || holds "sec" t) then return none
  let increment ← match search incrementHere? t with
    | some (seconds, _) => readCount seconds
    | none => .ok none
  let t := withoutIncrements t
  let minutes ← readLast (numeralsWith minuteWords t)
  let seconds ← readLast (numeralsWith secondWords t)
  return minutes.map fun m =>
    .single .freeText (((inRange? (m * 60)).bind fun base => inRange? (base + seconds.getD 0)).map
      fun base => ⟨base, none, increment⟩)

/-- Understands an informal wording by its parts. -/
def inferFreeText (t : Text) : Attempt := firstGuess (lower t) [inferStages, inferParts]

end TimeControl

end Scoresheet
