import Scoresheet.Record.Conversion
import Scoresheet.Text.Quoted

/-!
# Times of day

A time of day with its offset from universal time. The header form is hours, minutes and seconds
with colons between them, then nothing, the letter `Z`, or a signed offset. Each of the three
numbers has one digit or two.
-/

namespace Scoresheet

open Text

/-- A time of day on a clock that says nothing of its offset. -/
structure LocalTime where
  hour : Nat
  minute : Nat
  second : Nat
  deriving DecidableEq, Repr

/-- The time as `HH:MM:SS`. -/
def LocalTime.toText (t : LocalTime) : Text :=
  padded 2 t.hour ++ ':' :: padded 2 t.minute ++ ':' :: padded 2 t.second

/-- A time of day. -/
structure ClockTime extends LocalTime where
  /-- Minutes ahead of universal time. -/
  offset : Int
  deriving DecidableEq, Repr

namespace ClockTime

/-- The time with its offset, as `HH:MM:SS+HH:MM`. -/
def toText (t : ClockTime) : Text :=
  let minutes := t.offset.natAbs
  t.toLocalTime.toText ++ (if t.offset < 0 then '-' else '+') :: padded 2 (minutes / 60)
    ++ ':' :: padded 2 (minutes % 60)

/-! ## Reading -/

/-- Takes one number of a time off a text. `tens` says which first digits may be followed by which
second digits; where that does not hold, the number has one digit. -/
def takeNumber (tens : Char → Char → Bool) : Text → Option (Nat × Text)
  | c :: d :: rest =>
    match decimalValue? c, decimalValue? d with
    | some m, some n => if tens c d then some (10 * m + n, rest) else some (m, d :: rest)
    | some m, none => some (m, d :: rest)
    | none, _ => none
  | [c] => (decimalValue? c).map fun m => (m, [])
  | [] => none

/-- Hours run to 23. -/
def hourTens (c d : Char) : Bool := c == '0' || c == '1' || (c == '2' && '0' ≤ d && d ≤ '3')

/-- Minutes run to 59. -/
def minuteTens (c _ : Char) : Bool := '0' ≤ c && c ≤ '5'

/-- Seconds run to 61, which leaves room for leap seconds. -/
def secondTens (c d : Char) : Bool := ('0' ≤ c && c ≤ '5') || (c == '6' && (d == '0' || d == '1'))

/-- Takes hours, minutes and seconds off a text. -/
def takeTime (t : Text) : Option (LocalTime × Text) := do
  let (hour, t) ← takeNumber hourTens t
  let ':' :: t := t | none
  let (minute, t) ← takeNumber minuteTens t
  let ':' :: t := t | none
  let (second, t) ← takeNumber secondTens t
  return (⟨hour, minute, second⟩, t)

/-- Reads hours, minutes and seconds; the failure says why it is no time. -/
def readLocal (t : Text) : Except Text LocalTime :=
  match takeTime t with
  | none => .error ("time data ".toList ++ quoted t ++ " does not match format '%H:%M:%S'".toList)
  | some (time, rest) =>
    if !rest.isEmpty then .error ("unconverted data remains: ".toList ++ rest)
    else if time.second > 59 then .error "second must be in 0..59".toList
    else .ok time

/-- The minutes of an offset without its sign: one or two digits, a colon, two digits. -/
def offsetMinutes? (t : Text) : Option Nat :=
  match cutAt ':' (trim t) with
  | (hours, some minutes) =>
    if isNumeral hours && hours.length ≤ 2 && isNumeral minutes && minutes.length == 2 then
      let h := Nat.ofDigitChars 10 hours 0
      let m := Nat.ofDigitChars 10 minutes 0
      if h ≤ 23 && m ≤ 59 then some (60 * h + m) else none
    else none
  | (_, none) => none

/-- The part of a header value before its offset, and the offset in minutes; none if the offset
makes no sense. -/
def splitOffset? (s : Text) : Option (Text × Int) :=
  if s.getLast? = some 'Z' then some (s.dropLast, 0)
  else match cutAt '+' s with
    | (body, some offset) => (offsetMinutes? offset).map fun m => (body, (m : Int))
    | (_, none) => match cutAt '-' s with
      | (body, some offset) => (offsetMinutes? offset).map fun m => (body, -(m : Int))
      | (_, none) => some (s, 0)

/-- The time that a header value gives. -/
def ofHeader (label raw : Text) : Conversion ClockTime :=
  let s := trim raw
  if s.isEmpty || s.contains '?' then .ok none
  else match splitOffset? s with
    | none => Conversion.fail label s "invalid timezone offset"
    | some (body, offset) => match readLocal (trim body) with
      | .ok time => .ok (some ⟨time, offset⟩)
      | .error cause => .error (.senseless ⟨label, s, cause⟩)

end ClockTime

end Scoresheet
