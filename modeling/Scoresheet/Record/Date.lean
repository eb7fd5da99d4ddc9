import Scoresheet.Record.Conversion

/-!
# Dates

Dates of the Gregorian calendar and their header form: year, month and day with dots or hyphens
between them. Question marks stand for parts that are not known. Without a year there is no date;
an unknown month or day counts as the first. A day after the end of its month is taken back to the
last day.
-/

namespace Scoresheet

open Text

/-- A day of the calendar. -/
structure Date where
  year : Nat
  month : Nat
  day : Nat
  deriving DecidableEq, Repr

namespace Date

/-- A year with a twenty-ninth of February. -/
def isLeapYear (year : Nat) : Bool := year % 4 == 0 && (year % 100 != 0 || year % 400 == 0)

/-- The number of days of a month. -/
def daysInMonth (year month : Nat) : Nat :=
  if month = 2 then if isLeapYear year then 29 else 28
  else if month = 4 || month = 6 || month = 9 || month = 11 then 30
  else 31

/-- The date as `YYYY-MM-DD`. -/
def toText (d : Date) : Text :=
  padded 4 d.year ++ '-' :: padded 2 d.month ++ '-' :: padded 2 d.day

/-- The parts of a date's header form. -/
def parts (raw : Text) : List Text := (replaceChar '.' '-' (trim raw)).splitOn '-'

/-- How much a header value says: 0 if it gives no year, else one more than the number of the
other parts it gives. -/
def completeness (raw : Text) : Nat :=
  match parts raw with
  | [year, month, day] =>
    if isNumeral year then 1 + [month, day].countP isNumeral else 0
  | _ => 0

/-- A month or day, or the first if it is not known. -/
def orFirst (part : Text) : Text := if part.contains '?' then ['0', '1'] else part

/-- The date of three numerals; `raw` is the header value they come from. -/
def ofNumerals (label raw yearPart monthPart dayPart : Text) :
    Except ConversionFailure (Option Date) := do
  let year ← Conversion.numeral yearPart
  let month ← Conversion.numeral monthPart
  let day ← Conversion.numeral dayPart
  if 1 ≤ year ∧ year ≤ 9999 ∧ 1 ≤ month ∧ month ≤ 12 ∧ 1 ≤ day then
    return some ⟨year, month, min day (daysInMonth year month)⟩
  else Conversion.fail label raw "input is out of range"

/-- The date that a header value gives. -/
def ofHeader (label raw : Text) : Conversion Date :=
  let s := trim raw
  if s.isEmpty then .ok none
  else match parts s with
    | [year, monthPart, dayPart] =>
      let month := orFirst monthPart
      let day := orFirst dayPart
      if year.contains '?' then .ok none
      else if isNumeral year && isNumeral month && isNumeral day then
        ofNumerals label s year month day
      else Conversion.fail label s "invalid digit found in string"
    | _ => Conversion.fail label s "premature end of input"

end Date

end Scoresheet
