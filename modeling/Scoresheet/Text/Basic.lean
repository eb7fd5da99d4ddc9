/-!
# Text

A text is a list of characters. This module holds the white space class and the cuts that every
reader of the library uses:

* `trim`, `trimLeft`, `trimRight` drop white space at the ends;
* `words` splits at runs of white space;
* `lines` splits after each line feed and loses nothing (`flatten_lines`);
* `cutAt` cuts at the first occurrence of a character, `join` puts texts together.
-/

namespace Scoresheet

/-- A text is the list of its characters. -/
abbrev Text := List Char

namespace Text

/-! ## White space -/

/-- White space is every Unicode space and line separator together with the ASCII control
characters that separate fields (`U+001C` to `U+001F`). -/
def isBlank (c : Char) : Bool :=
  let n := c.toNat
  (9 ≤ n && n ≤ 13) || (28 ≤ n && n ≤ 32) || n == 0x85 || n == 0xA0 || n == 0x1680
    || (0x2000 ≤ n && n ≤ 0x200A) || n == 0x2028 || n == 0x2029 || n == 0x202F
    || n == 0x205F || n == 0x3000

/-- The text without the white space at its start. -/
def trimLeft (t : Text) : Text := t.dropWhile isBlank

/-- The text without the white space at its end. -/
def trimRight (t : Text) : Text := (t.reverse.dropWhile isBlank).reverse

/-- The text without the white space at either end. -/
def trim (t : Text) : Text := trimRight (trimLeft t)

/-- A text of white space only. -/
def isBlankText (t : Text) : Bool := t.all isBlank

/-! ## Words -/

/-- The finished word as a list, none if no character was collected. -/
def flushWord : Text → List Text
  | [] => []
  | word => [word.reverse]

/-- The words of a text, given the word in progress with its last character first. -/
def wordsFrom (word : Text) : Text → List Text
  | [] => flushWord word
  | c :: cs =>
    if isBlank c then flushWord word ++ wordsFrom [] cs else wordsFrom (c :: word) cs

/-- The maximal runs of characters that are not white space. -/
def words (t : Text) : List Text := wordsFrom [] t

/-! ## Lines -/

/-- One line: its characters, the line feed that ends it included. -/
abbrev Line := List Char

/-- The lines of a text, given the line in progress with its last character first. -/
def linesFrom (line : Line) : Text → List Line
  | [] => flushWord line
  | c :: cs =>
    if c = '\n' then (c :: line).reverse :: linesFrom [] cs else linesFrom (c :: line) cs

/-- The lines of a text. Each but the last ends with a line feed. -/
def lines (t : Text) : List Line := linesFrom [] t

theorem flatten_flushWord (w : Text) : (flushWord w).flatten = w.reverse := by
  cases w <;> simp [flushWord]

theorem flatten_linesFrom (line : Line) (t : Text) :
    (linesFrom line t).flatten = line.reverse ++ t := by
  induction t generalizing line with
  | nil => simp [linesFrom, flatten_flushWord]
  | cons c cs ih =>
    rw [linesFrom]
    split
    · simp [ih]
    · simp [ih]

/-- Cutting a text into lines loses nothing. -/
@[simp] theorem flatten_lines (t : Text) : (lines t).flatten = t := by
  simp [lines, flatten_linesFrom]

/-! ## Separators -/

/-- The texts one after another with `sep` between neighbours. -/
def join (sep : Text) (ts : List Text) : Text := List.intercalate sep ts

/-- Cuts a text at the first occurrence of `sep`, which belongs to neither part. -/
def cutAt (sep : Char) (t : Text) : Text × Option Text :=
  match t.dropWhile (· != sep) with
  | [] => (t, none)
  | _ :: rest => (t.takeWhile (· != sep), some rest)

/-- The text with every character `old` replaced by `new`. -/
def replaceChar (old new : Char) (t : Text) : Text := t.map fun c => if c = old then new else c

end Text

end Scoresheet
