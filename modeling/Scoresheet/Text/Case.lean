import Scoresheet.Text.Basic

/-!
# Letter case

Wordings are compared with words of small ASCII letters. Two ways of disregarding case are in use.
`lower` turns letters into small ones; apart from the ASCII letters only the Kelvin sign and the
dotted capital I have an ASCII letter in their small form. `foldCase` takes together all letters
that differ in case only, which adds the long s and the dotless i. Other letters stay as they are,
for no word of small ASCII letters depends on them.
-/

namespace Scoresheet.Text

/-- The small form of an ASCII letter. -/
def lowerAscii (c : Char) : Char := if 'A' ≤ c && c ≤ 'Z' then Char.ofNat (c.toNat + 32) else c

/-- A text in small letters. -/
def lower (t : Text) : Text :=
  t.flatMap fun c =>
    if c = '\u212A' then ['k'] else if c = '\u0130' then ['i', '\u0307'] else [lowerAscii c]

/-- A text with letters that differ in case only made the same. -/
def foldCase (t : Text) : Text :=
  t.map fun c =>
    if c = '\u212A' then 'k' else if c = '\u0130' || c = '\u0131' then 'i'
    else if c = '\u017F' then 's' else lowerAscii c

end Scoresheet.Text
