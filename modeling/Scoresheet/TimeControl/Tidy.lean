import Scoresheet.Text.DecimalDigit
import Scoresheet.Text.Replace
import Scoresheet.TimeControl.Strict

/-!
# Tidying of values

Before a value is understood it is tidied: white space and quotes around it are taken away, spaces
around operators are closed up, and other separators are turned into plus signs. A quote that is
left over and does not stand after a digit makes a value ambiguous.
-/

namespace Scoresheet

open Text

namespace TimeControl

/-- A quotation mark. -/
def isQuote (c : Char) : Bool := c == '\'' || c == '"'

/-- Whether a text stands between two quotation marks. -/
def isEnclosed (t : Text) : Bool :=
  2 ≤ t.length && t.head?.any isQuote && t.getLast?.any isQuote

/-- The text with its first and its last character taken away. -/
def inner (t : Text) : Text := t.tail.dropLast

theorem length_trim_le (t : Text) : (trim t).length ≤ t.length := by
  have h1 := (List.dropWhile_suffix (l := t) isBlank).length_le
  have h2 := (List.dropWhile_suffix (l := (t.dropWhile isBlank).reverse) isBlank).length_le
  simp only [trim, trimRight, trimLeft, List.length_reverse] at *
  omega

/-- Takes away the quotation marks around a text, with the white space inside them. -/
def stripQuotes (t : Text) : Text :=
  if isEnclosed t then stripQuotes (trim (inner t)) else t
termination_by t.length
decreasing_by
  rename_i h
  have hlen : 2 ≤ t.length := by
    simp only [isEnclosed, Bool.and_eq_true, decide_eq_true_eq] at h
    exact h.1.1
  have htrim := length_trim_le (inner t)
  have hinner : (inner t).length = t.length - 1 - 1 := by simp [inner]
  omega

/-- An apostrophe, or a run of them, that does not stand after a digit. -/
def hasLooseApostrophe (before : Option Char) : Text → Bool
  | [] => false
  | c :: cs =>
    (c == '\'' && !before.any (fun b => isDigitLike b || b == '\'')) ||
      hasLooseApostrophe (some c) cs

/-- A quotation mark is left over whose meaning is not clear. -/
def hasAmbiguousQuote (t : Text) : Bool := t.contains '"' || hasLooseApostrophe none t

/-- Closes up the spaces around plus signs. -/
def plusSpacing : List (String × String) := [(" + ", "+"), ("+ ", "+"), (" +", "+")]

/-- Closes up the spaces around operators, one operator after another. -/
def operatorSpacing : List (String × String) :=
  plusSpacing ++ [(" - ", "-"), ("- ", "-"), (" -", "-"), (" / ", "/"), ("/ ", "/"), (" /", "/"),
    (" : ", ":"), (": ", ":"), (" :", ":")]

/-- A character that separates base and increment like a plus sign. -/
def plusLike (c : Char) : Char := if c = '|' || c = '_' then '+' else c

/-- A tidied value, and what was done to it. -/
structure Tidied where
  text : Text
  remarks : List Remark
  deriving DecidableEq, Repr

/-- A remark that is made if a text has changed. -/
def ifChanged (before after : Text) (remark : Remark) : List Remark :=
  if before == after then [] else [remark]

/-- A single apostrophe at the end is taken away from a value of the standard form. -/
def stripApostrophe (t : Text) : Except OversizedNumeral Tidied :=
  match t.reverse with
  | '\'' :: '\'' :: _ => .ok ⟨t, []⟩
  | '\'' :: _ => do
    if ← isStandard t.dropLast then return ⟨t.dropLast, [.strippedApostrophe]⟩
    return ⟨t, []⟩
  | _ => .ok ⟨t, []⟩

/-- A value without white space and quotation marks around it. -/
def unwrap (raw : Text) : Tidied :=
  let trimmed := trim raw
  let plain := stripQuotes trimmed
  ⟨plain, ifChanged raw trimmed .trimmed ++ (if isEnclosed trimmed then [.strippedQuotes] else [])
    ++ (if hasAmbiguousQuote plain then [.ambiguousQuotes] else [])⟩

/-- A value with operators closed up and separators made the same. -/
def closeUp (t : Text) : Tidied :=
  let spaced := replaceEach operatorSpacing t
  let mapped := spaced.map plusLike
  if mapped == spaced then ⟨spaced, ifChanged t spaced .operatorSpacing⟩
  else
    let respaced := replaceEach plusSpacing mapped
    ⟨respaced, ifChanged t spaced .operatorSpacing ++ [.mappedSeparator]
      ++ ifChanged mapped respaced .operatorSpacing⟩

/-- Tidies a value. -/
def tidy (raw : Text) : Except OversizedNumeral Tidied := do
  let unwrapped := unwrap raw
  let closed := closeUp unwrapped.text
  let final ← stripApostrophe closed.text
  return ⟨final.text, unwrapped.remarks ++ closed.remarks ++ final.remarks⟩

end TimeControl

end Scoresheet
