import Scoresheet.TimeControl.FreeText
import Scoresheet.TimeControl.Tidy

/-!
# Reading time controls

A value is tidied and then read in the standard form, by the templates, or by its parts, in this
order. If nothing fits, a last word of letters alone is dropped and the rest is read in the same
way. A value that cannot be understood is kept as an unknown control.
-/

namespace Scoresheet

open Text

namespace TimeControl

/-- A control and the remarks on how it was found. -/
abbrev Found := Except OversizedNumeral (Option (TimeControl × List Remark))

/-- Reads a tidied value. -/
def readTidied (t : Text) : Found := do
  match ← readStandard t with
  | some control => return some (control, [])
  | none => return (← firstGuess t [infer, inferFreeText]).map fun guess =>
      (guess.control, guess.remarks)

/-- The value without its last word, if that is made of letters alone. -/
def dropQualifier? (t : Text) : Option Text :=
  let reversed := t.reverse
  let qualifier := reversed.takeWhile isLetter
  let before := reversed.dropWhile isLetter
  let core := trimRight before.reverse
  if !qualifier.isEmpty && before.head?.any isBlank && !core.isEmpty && !core.contains '\n'
      && !qualifier.any isDigitLike then some core
  else none

/-- Reads a tidied value, without its last word if need be. -/
def readQualified (t : Text) : Found := do
  match ← readTidied t with
  | some found => return some found
  | none => match dropQualifier? t with
    | none => return none
    | some core =>
      return (← readTidied core).map fun (control, remarks) =>
        (control, .ignoredQualifier :: remarks)

end TimeControl

open TimeControl

/-- Reads a value that is not blank. -/
def readTimeControl (raw : Text) : Except OversizedNumeral (Option TimeControlReading) :=
  if isBlankText raw then .ok none
  else do
    let tidied ← tidy raw
    let unknown : TimeControlReading := ⟨raw, .unknown false, tidied.remarks⟩
    if tidied.remarks.contains .ambiguousQuotes then return some unknown
    match ← readQualified tidied.text with
    | some (control, remarks) => return some ⟨raw, control, tidied.remarks ++ remarks⟩
    | none => return some unknown

/-- The standard form of a value. -/
def normalizeTimeControl (raw : Text) : Except OversizedNumeral (Option Text) := do
  return (← readTimeControl raw).bind fun r => r.control.normalized?

/-- The speed class of a value. -/
def timeControlCategory (raw : Text) : Except OversizedNumeral (Option Text) := do
  return (← readTimeControl raw).bind fun r => r.control.category?

/-- The description of a value as JSON text. A blank value is described as unknown. -/
def timeControlJson (raw : Text) : Except OversizedNumeral Text := do
  let reading := (← readTimeControl raw).getD ⟨raw, .unknown false, [.nothingToRead]⟩
  return reading.toJson.toText

end Scoresheet
