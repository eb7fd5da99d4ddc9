import Scoresheet.Text.Printable

/-!
# Quoted texts

The form in which messages show a text they were given: between quotes, with a backslash before
each character that could be mistaken, and unprintable characters by their code points in
lower-case hexadecimal. Single quotes are used unless the text has a single quote and no double
quote.
-/

namespace Scoresheet.Text

/-- The hexadecimal numeral of `n` in `width` digits at least. -/
def hex (width n : Nat) : Text :=
  let digits := Nat.toDigits 16 n
  List.replicate (width - digits.length) '0' ++ digits

/-- One character of a text quoted with `quote`. -/
def quotedChar (quote : Char) (c : Char) : Text :=
  if c = quote || c = '\\' then ['\\', c]
  else if c = '\n' then ['\\', 'n']
  else if c = '\r' then ['\\', 'r']
  else if c = '\t' then ['\\', 't']
  else if isPrintable c then [c]
  else if c.toNat < 0x100 then '\\' :: 'x' :: hex 2 c.toNat
  else if c.toNat < 0x10000 then '\\' :: 'u' :: hex 4 c.toNat
  else '\\' :: 'U' :: hex 8 c.toNat

/-- The quote that a quoted text stands between. -/
def quoteFor (t : Text) : Char :=
  if t.contains '\'' && !t.contains '"' then '"' else '\''

/-- The text between quotes, as messages show it. -/
def quoted (t : Text) : Text :=
  let quote := quoteFor t
  quote :: t.flatMap (quotedChar quote) ++ [quote]

end Scoresheet.Text
