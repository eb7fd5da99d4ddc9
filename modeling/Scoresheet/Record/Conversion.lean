import Scoresheet.Text.Numeral

/-!
# Conversion of header values

A header value is a text; ratings, dates and times are converted from it. A conversion yields
nothing for a value that says it is unknown, and fails for one that makes no sense. The failure
keeps the label under which the value is reported, the value and the cause.
-/

namespace Scoresheet

/-- A header value that could not be converted. -/
structure ConversionError where
  label : Text
  raw : Text
  cause : Text
  deriving DecidableEq, Repr

/-- What is said about a header value that could not be converted. -/
def ConversionError.message (e : ConversionError) : Text :=
  "Conversion error: ".toList ++ e.label ++ "='".toList ++ e.raw ++ "' (".toList ++ e.cause ++ [')']

/-- Why a conversion ended without a value. -/
inductive ConversionFailure
  | senseless (error : ConversionError)
  | oversized (numeral : Text.OversizedNumeral)
  deriving DecidableEq, Repr

/-- The outcome of a conversion: a value, nothing for an unknown value, or a failure. -/
abbrev Conversion (α : Type) := Except ConversionFailure (Option α)

namespace Conversion

open Text

/-- The failure of a conversion. -/
def fail {α : Type} (label raw : Text) (cause : String) : Except ConversionFailure α :=
  .error (.senseless ⟨label, raw, cause.toList⟩)

/-- Reads a numeral in a header value. -/
def numeral (t : Text) : Except ConversionFailure Nat :=
  match readNumeral t with
  | .ok n => .ok n
  | .error e => .error (.oversized e)

end Conversion

/-! ## Ratings -/

/-- The rating that a header value gives. Question mark and hyphen stand for an unknown rating. -/
def readRating (label raw : Text) : Conversion Nat :=
  let s := Text.trim raw
  if s == [] || s == ['?'] || s == ['-'] then .ok none
  else if Text.isNumeral s then (Conversion.numeral s).map some
  else Conversion.fail label s "invalid digit found in string"

end Scoresheet
