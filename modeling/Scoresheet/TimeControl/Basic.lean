import Scoresheet.Text.Json
import Scoresheet.Text.Numeral

/-!
# Time controls

A time control is a sequence of periods, a sandclock, no control at all, or unknown. All times are
in seconds, and no number of a control exceeds `maxCount`. A control that was understood but has a
greater number is `oversized` and has no periods.

What was done to understand a value is kept as a list of remarks.
-/

namespace Scoresheet

open Text

/-- The greatest number that a time control may hold. -/
def maxCount : Nat := 0xFFFFFFFF

/-- A number that a time control may hold. -/
def inRange? (n : Nat) : Option Nat := if n ≤ maxCount then some n else none

/-- A period: a time for a number of moves or for the rest of the game, and the time added with
each move. -/
structure Period where
  base : Nat
  moves : Option Nat
  increment : Option Nat
  deriving DecidableEq, Repr

namespace Period

/-- A period as `moves/base+increment`. -/
def toText (p : Period) : Text :=
  (match p.moves with
    | some m => decimal m ++ ['/']
    | none => []) ++ decimal p.base ++
  (match p.increment with
    | some i => '+' :: decimal i
    | none => [])

/-- The time of a period of forty moves, by which the speed of a game is judged. -/
def estimate (p : Period) : Nat := p.base + 40 * p.increment.getD 0

end Period

/-- A time control. -/
inductive TimeControl
  /-- Nothing is known; `stated` if the value says so. -/
  | unknown (stated : Bool)
  | unlimited
  | sandclock (seconds : Nat)
  /-- One or more periods; `inferred` if they are read out of an informal wording. -/
  | periods (first : Period) (later : List Period) (inferred : Bool)
  /-- An informal wording with a number that is too great. -/
  | oversized
  deriving DecidableEq, Repr

namespace TimeControl

/-- Periods as they are written, with colons between them. -/
def periodsText (ps : List Period) : Text := join [':'] (ps.map Period.toText)

/-- The standard form of a control. -/
def normalized? : TimeControl → Option Text
  | unknown true => some ['?']
  | unknown false => none
  | unlimited => some ['-']
  | sandclock seconds => some ('*' :: decimal seconds)
  | periods first later _ => some (periodsText (first :: later))
  | oversized => none

/-- The periods of a control. A sandclock is one period. -/
def periodList : TimeControl → List Period
  | sandclock seconds => [⟨seconds, none, none⟩]
  | periods first later _ => first :: later
  | _ => []

/-- The kind of a control. -/
inductive Mode
  | unknown
  | unlimited
  | sandclock
  | normal
  deriving DecidableEq, Repr

def Mode.name : Mode → Text
  | unknown => "unknown".toList
  | unlimited => "unlimited".toList
  | sandclock => "sandclock".toList
  | normal => "normal".toList

/-- The kind of a control. -/
def mode : TimeControl → Mode
  | .unknown _ => .unknown
  | .unlimited => .unlimited
  | .sandclock _ => .sandclock
  | .periods _ _ _ | .oversized => .normal

/-- The control is read out of an informal wording. -/
def isInferred : TimeControl → Bool
  | periods _ _ inferred => inferred
  | oversized => true
  | _ => false

/-- The control has a number that is too great. -/
def isOversized : TimeControl → Bool
  | oversized => true
  | _ => false

/-! ## Speed -/

/-- The speed classes, each with the estimate that it stays below. -/
def speedBands : List (Nat × Text) :=
  [(30, "ultra-bullet".toList), (180, "bullet".toList), (480, "blitz".toList),
    (1500, "rapid".toList)]

/-- The speed class of a control with periods, by the first of them. -/
def category? : TimeControl → Option Text
  | periods first _ _ =>
    some (((speedBands.find? fun band => first.estimate < band.1).map Prod.snd).getD
      "classical".toList)
  | _ => none

end TimeControl

/-! ## Remarks -/

/-- How an informal wording was understood. -/
inductive Interpretation
  | gameMinutes
  | apostrophePerMove
  | compactFideApostrophe
  | compactFideBonus
  | fideAdditional
  | compactFideTriplePlus
  | twoStageSlash
  | compactMinuteSecond
  | clockStyleBase
  | apostropheNotation
  | smallBaseAsMinutes
  | classicalAsMinutes
  | smallNumberAsMinutes
  | freeTextFideClassical
  | freeText
  deriving DecidableEq, Repr

/-- What was noticed while a value was read. -/
inductive Remark
  | trimmed
  | strippedQuotes
  | ambiguousQuotes
  | operatorSpacing
  | mappedSeparator
  | strippedApostrophe
  | ignoredQualifier
  | interpreted (how : Interpretation)
  | overflow
  /-- The value is blank. -/
  | nothingToRead
  deriving DecidableEq, Repr

def Interpretation.name : Interpretation → Text
  | gameMinutes => "interpreted_g_prefix_as_minutes".toList
  | apostrophePerMove => "interpreted_apostrophe_per_move_suffix".toList
  | compactFideApostrophe => "interpreted_compact_fide_apostrophe".toList
  | compactFideBonus => "interpreted_compact_fide_bonus_wording".toList
  | fideAdditional => "interpreted_fide_additional_wording".toList
  | compactFideTriplePlus => "interpreted_compact_fide_triple_plus".toList
  | twoStageSlash => "interpreted_two_stage_slash_shorthand".toList
  | compactMinuteSecond => "interpreted_compact_minute_second_increment".toList
  | clockStyleBase => "interpreted_clock_style_base".toList
  | apostropheNotation => "interpreted_apostrophe_notation".toList
  | smallBaseAsMinutes => "interpreted_small_base_as_minutes".toList
  | classicalAsMinutes => "interpreted_classical_75_90_as_minutes".toList
  | smallNumberAsMinutes => "interpreted_small_bare_number_as_minutes".toList
  | freeTextFideClassical => "matched_free_text_template_fide_classical".toList
  | freeText => "matched_free_text_template".toList

def Remark.name : Remark → Text
  | trimmed => "trimmed".toList
  | strippedQuotes => "stripped_quotes".toList
  | ambiguousQuotes => "ambiguous_quote_residue".toList
  | operatorSpacing => "normalized_operator_whitespace".toList
  | mappedSeparator => "mapped_separator".toList
  | strippedApostrophe => "stripped_trailing_apostrophe".toList
  | ignoredQualifier => "ignored_trailing_qualifier_suffix".toList
  | interpreted how => how.name
  | overflow => "inference_arithmetic_overflow".toList
  | nothingToRead => "parse_error".toList

/-! ## Readings -/

/-- What was made of a value: the value as it was given, the control, and the remarks. -/
structure TimeControlReading where
  raw : Text
  control : TimeControl
  remarks : List Remark
  deriving DecidableEq, Repr

namespace TimeControlReading

/-- A period as a JSON object; what it does not have is left out. -/
def periodJson (p : Period) : Json :=
  .object ((p.moves.toList.map fun m => ("moves".toList, .number m))
    ++ [("base".toList, .number p.base)]
    ++ p.increment.toList.map fun i => ("increment".toList, .number i))

/-- The reading as a JSON object. -/
def toJson (r : TimeControlReading) : Json :=
  .object [
    ("raw".toList, .string r.raw),
    ("normalized".toList, (r.control.normalized?.map Json.string).getD .null),
    ("mode".toList, .string r.control.mode.name),
    ("periods".toList, .array (r.control.periodList.map periodJson)),
    ("warnings".toList, .array (r.remarks.map fun remark => .string remark.name)),
    ("inferred".toList, .bool r.control.isInferred),
    ("overflow".toList, .bool r.control.isOversized)]

end TimeControlReading

end Scoresheet
