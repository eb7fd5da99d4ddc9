import Scoresheet.Text.DecimalDigit

/-!
# Numerals

Writing natural numbers in decimal and reading decimal numerals back (`read_decimal`). A numeral
of more than `maxDigits` digits is refused: converting it would take time quadratic in its length.
`readInteger?` reads the looser form of whole numbers that settings and position records use.
-/

namespace Scoresheet.Text

/-! ## Writing -/

/-- The decimal numeral of a natural number. -/
def decimal (n : Nat) : Text := Nat.toDigits 10 n

/-- The decimal numeral of a number of `width` digits at least, zeros put in front. -/
def padded (width n : Nat) : Text :=
  List.replicate (width - (decimal n).length) '0' ++ decimal n

/-- The decimal numeral of an integer, with a minus sign if it is negative. -/
def decimalInt : Int → Text
  | .ofNat n => decimal n
  | .negSucc n => '-' :: decimal (n + 1)

/-! ## Reading -/

/-- The greatest number of digits of a numeral that is converted. -/
def maxDigits : Nat := 4300

/-- A numeral that has too many digits to be converted. -/
structure OversizedNumeral where
  digits : Nat
  deriving DecidableEq, Repr

/-- What is reported about a numeral of too many digits. -/
def OversizedNumeral.message (e : OversizedNumeral) : Text :=
  "Exceeds the limit (".toList ++ decimal maxDigits
    ++ " digits) for integer string conversion: value has ".toList ++ decimal e.digits
    ++ " digits; use sys.set_int_max_str_digits() to increase the limit".toList

/-- A text of one or more ASCII digits. -/
def isNumeral (t : Text) : Bool := !t.isEmpty && t.all isAsciiDigit

theorem isAsciiDigit_of_isNumeral {t : Text} (h : isNumeral t = true) {c : Char} (hc : c ∈ t) :
    isAsciiDigit c = true := by
  rw [isNumeral, Bool.and_eq_true] at h
  exact List.all_eq_true.1 h.2 c hc

theorem ne_nil_of_isNumeral {t : Text} (h : isNumeral t = true) : t ≠ [] := by
  rintro rfl
  simp [isNumeral] at h

/-- The number that a text of ASCII digits denotes. -/
def readNumeral (t : Text) : Except OversizedNumeral Nat :=
  if t.length ≤ maxDigits then .ok (Nat.ofDigitChars 10 t 0) else .error ⟨t.length⟩

/-- Reading what was written gives the number back, up to the limit. -/
theorem read_decimal {n : Nat} (h : (decimal n).length ≤ maxDigits) :
    readNumeral (decimal n) = .ok n := by
  rw [readNumeral, if_pos h, decimal, Nat.ofDigitChars_toDigits (by decide) (by decide)]

/-- The ASCII digit of the same value as a decimal digit of any script. -/
def asciiDigit (c : Char) : Char := Nat.digitChar ((decimalValue? c).getD 0)

/-- The digits of a numeral in which single low lines may stand between digits, as ASCII digits;
none for any other text. -/
def groupedDigits? : Text → Option Text
  | [] => none
  | [c] => if isDecimalDigit c then some [asciiDigit c] else none
  | c :: '_' :: cs =>
    if isDecimalDigit c then (groupedDigits? cs).map (asciiDigit c :: ·) else none
  | c :: d :: cs =>
    if isDecimalDigit c then (groupedDigits? (d :: cs)).map (asciiDigit c :: ·) else none

/-- White space that may stand around a whole number; the ASCII field separators do not count. -/
def isMargin (c : Char) : Bool := isBlank c && !(28 ≤ c.toNat && c.toNat ≤ 31)

/-- The text without the margins at either end. -/
def withoutMargins (t : Text) : Text :=
  ((t.dropWhile isMargin).reverse.dropWhile isMargin).reverse

/-- A whole number with optional white space around it, an optional sign and digits of any script,
which single low lines may separate; none for any other text and for an oversized numeral. -/
def readInteger? (t : Text) : Option Int :=
  let magnitude (digits : Text) : Option Nat :=
    (groupedDigits? digits).bind fun ds => (readNumeral ds).toOption
  match withoutMargins t with
  | '-' :: digits => (magnitude digits).map fun n => -(n : Int)
  | '+' :: digits => (magnitude digits).map Int.ofNat
  | digits => (magnitude digits).map Int.ofNat

end Scoresheet.Text
