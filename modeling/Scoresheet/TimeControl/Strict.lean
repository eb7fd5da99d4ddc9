import Scoresheet.TimeControl.Basic

/-!
# The standard form of time controls

A period is written `moves/base+increment`, where the moves and the increment may be missing, and
periods have colons between them. A question mark stands for an unknown control, a hyphen for
none, and a star before the seconds for a sandclock.

A single short period such as `3+2` or `5` is not taken as seconds: it is left to be understood as
minutes.
-/

namespace Scoresheet

open Text

namespace TimeControl

/-- The number of a numeral of ASCII digits that is in range; none for any other text. -/
def readCount (t : Text) : Except OversizedNumeral (Option Nat) :=
  if isNumeral t then (readNumeral t).map inRange? else .ok none

/-- Reads what stands before the increment of a period. -/
def readBase (t : Text) : Except OversizedNumeral (Option Period) :=
  match t.splitOn '/' with
  | [base] => do return (← readCount base).map fun b => ⟨b, none, none⟩
  | [moves, base] => do
    match ← readCount moves with
    | none => return none
    | some m => return (← readCount base).map fun b => ⟨b, some m, none⟩
  | _ => .ok none

/-- Reads one period. -/
def readPeriod (t : Text) : Except OversizedNumeral (Option Period) :=
  match t.splitOn '+' with
  | [base] => readBase base
  | [base, increment] => do
    match ← readBase base with
    | none => return none
    | some p => return (← readCount increment).map fun i => { p with increment := some i }
  | _ => .ok none

/-- Reads the parts between colons, up to the first that is no period. -/
def arePeriods : List Text → Except OversizedNumeral Bool
  | [] => .ok true
  | t :: ts => do
    match ← readPeriod t with
    | none => return false
    | some _ => arePeriods ts

/-- Reads one period for each part between colons. -/
def readPeriods (ts : List Text) : Except OversizedNumeral (Option (List Period)) := do
  return (← ts.mapM readPeriod).mapM id

/-- A single period with numbers so small that they are meant in minutes. -/
def looksLikeMinutes (p : Period) : Bool :=
  match p.moves, p.increment with
  | some _, _ => false
  | none, none => p.base < 60
  | none, some i => (p.base < 60 && i ≤ 60) || ((p.base == 75 || p.base == 90) && i == 30)

/-- The seconds of a sandclock. -/
def readSandclock : Text → Except OversizedNumeral (Option Nat)
  | '*' :: t => readCount t
  | _ => .ok none

/-- The text has the standard form; a single short period counts as well. -/
def isStandard (t : Text) : Except OversizedNumeral Bool := do
  if t == ['?'] || t == ['-'] then return true
  if (← readSandclock t).isSome then return true
  if t.contains ':' then
    if ← arePeriods (t.splitOn ':') then return true
  return (← readPeriod t).isSome

/-- The control that consists of a list of periods. -/
def ofPeriods? : List Period → Option TimeControl
  | first :: later => some (.periods first later false)
  | [] => none

/-- Reads several periods with colons between them. -/
def readStages (t : Text) : Except OversizedNumeral (Option TimeControl) :=
  let parts := t.splitOn ':'
  if parts.length > 1 then do return (← readPeriods parts).bind ofPeriods? else .ok none

/-- Reads one period unless it looks like minutes. -/
def readSingle (t : Text) : Except OversizedNumeral (Option TimeControl) := do
  match ← readPeriod t with
  | none => return none
  | some p => return if looksLikeMinutes p then none else some (.periods p [] false)

/-- Reads a control in its standard form. -/
def readStandard (t : Text) : Except OversizedNumeral (Option TimeControl) :=
  if t == ['?'] then .ok (some (.unknown true))
  else if t == ['-'] then .ok (some .unlimited)
  else do
    match ← readSandclock t with
    | some seconds => return some (.sandclock seconds)
    | none => match ← readStages t with
      | some control => return some control
      | none => readSingle t

end TimeControl

end Scoresheet
