import Scoresheet.Proofs.Text.Numerals

/-!
# Numerals with zeros in front

A number has many numerals, which differ in the zeros in front. The numeral that is written for a
number has none, so reading a numeral and writing its number takes the zeros away and nothing else
(`Numeral.decimal_value`).
-/

namespace Scoresheet.Text

/-- The digits of a numeral without the zeros in front. One zero stays if there is nothing else. -/
def withoutLeadingZeros (t : Text) : Text :=
  match t.dropWhile (· == '0') with
  | [] => ['0']
  | c :: cs => c :: cs

theorem withoutLeadingZeros_zero (t : Text) :
    withoutLeadingZeros ('0' :: t) = withoutLeadingZeros t := by
  rw [withoutLeadingZeros, List.dropWhile_cons_of_pos (by rfl), withoutLeadingZeros]

theorem withoutLeadingZeros_of_ne {c : Char} (h : c ≠ '0') (t : Text) :
    withoutLeadingZeros (c :: t) = c :: t := by
  rw [withoutLeadingZeros, List.dropWhile_cons_of_neg (by simpa using h)]

/-! ## Digits and their values -/

/-- An ASCII digit is written for its value. -/
theorem digitChar_toNat {c : Char} (h : isAsciiDigit c = true) :
    c.toNat - '0'.toNat < 10 ∧ Nat.digitChar (c.toNat - '0'.toNat) = c :=
  of_digits (P := fun c => c.toNat - '0'.toNat < 10 ∧ Nat.digitChar (c.toNat - '0'.toNat) = c)
    (by decide) h

/-- Digits behind a number that is not zero stay as they are. -/
theorem decimal_ofDigitChars {t : Text} (h : ∀ c ∈ t, isAsciiDigit c = true) {n : Nat}
    (hn : 0 < n) : decimal (Nat.ofDigitChars 10 t n) = decimal n ++ t := by
  -- along the digits; the number that has been read so far stays arbitrary
  induction t generalizing n with
  | nil => rw [Nat.ofDigitChars_nil, List.append_nil]
  | cons c t ih =>
    obtain ⟨hdigit, hchar⟩ := digitChar_toNat (h c List.mem_cons_self)
    have hdecimal : decimal (10 * n + (c.toNat - '0'.toNat)) = decimal n ++ [c] := by
      rw [decimal, ← Nat.toDigits_append_toDigits (by decide) hn hdigit,
        Nat.toDigits_of_lt_base hdigit, hchar]
      rfl
    rw [Nat.ofDigitChars_cons, ih (fun d hd => h d (List.mem_cons_of_mem c hd)) (by omega),
      hdecimal, List.append_assoc, List.singleton_append]

/-- The number of a run of digits is written with the same digits, without the zeros in front. -/
theorem decimal_ofDigitChars_zero {t : Text} (h : ∀ c ∈ t, isAsciiDigit c = true) :
    decimal (Nat.ofDigitChars 10 t 0) = withoutLeadingZeros t := by
  induction t with
  | nil => rfl
  | cons c t ih =>
    have ht : ∀ d ∈ t, isAsciiDigit d = true := fun d hd => h d (List.mem_cons_of_mem c hd)
    obtain ⟨hdigit, hchar⟩ := digitChar_toNat (h c List.mem_cons_self)
    rw [Nat.ofDigitChars_cons, Nat.mul_zero, Nat.zero_add]
    by_cases hc : c = '0'
    · subst hc
      rw [withoutLeadingZeros_zero, ← ih ht]
      rfl
    -- from the first other digit on the number is not zero, and nothing is lost any more
    · have hpos : 0 < c.toNat - '0'.toNat := by
        refine Nat.pos_of_ne_zero ?_
        intro hzero
        rw [hzero] at hchar
        exact hc hchar.symm
      rw [withoutLeadingZeros_of_ne hc, decimal_ofDigitChars ht hpos, decimal,
        Nat.toDigits_of_lt_base hdigit, hchar, List.singleton_append]

/-! ## Numerals -/

/-- A text of ASCII digits, one at least. -/
structure Numeral where
  text : Text
  text_isNumeral : isNumeral text = true

namespace Numeral

/-- The number that a numeral denotes. -/
def value (n : Numeral) : Nat := Nat.ofDigitChars 10 n.text 0

/-- The numeral that is written for a number. -/
def ofNat (n : Nat) : Numeral := ⟨decimal n, isNumeral_decimal n⟩

@[simp] theorem value_ofNat (n : Nat) : (ofNat n).value = n :=
  Nat.ofDigitChars_toDigits (by decide) (by decide)

theorem isAsciiDigit_of_mem {n : Numeral} {c : Char} (h : c ∈ n.text) : isAsciiDigit c = true :=
  isAsciiDigit_of_isNumeral n.text_isNumeral h

theorem text_ne_nil (n : Numeral) : n.text ≠ [] := ne_nil_of_isNumeral n.text_isNumeral

/-- A character that is no digit stands in no numeral. -/
theorem not_mem_text (n : Numeral) {c : Char} (h : isAsciiDigit c = false) : c ∉ n.text := by
  intro hc
  rw [isAsciiDigit_of_mem hc] at h
  exact Bool.noConfusion h

theorem exists_text_eq_cons (n : Numeral) : ∃ c cs, n.text = c :: cs ∧ isAsciiDigit c = true := by
  obtain ⟨c, cs, h⟩ := List.exists_cons_of_ne_nil n.text_ne_nil
  exact ⟨c, cs, h, isAsciiDigit_of_mem (h ▸ List.mem_cons_self)⟩

theorem exists_text_eq_concat (n : Numeral) : ∃ u c, n.text = u ++ [c] ∧ isAsciiDigit c = true := by
  obtain ⟨u, c, h⟩ := (List.eq_nil_or_concat n.text).resolve_left n.text_ne_nil
  rw [List.concat_eq_append] at h
  exact ⟨u, c, h, isAsciiDigit_of_mem (n := n) (by simp [h])⟩

/-- **Writing the number of a numeral** takes away the zeros in front. -/
theorem decimal_value (n : Numeral) : decimal n.value = withoutLeadingZeros n.text :=
  decimal_ofDigitChars_zero fun _ => isAsciiDigit_of_mem

end Numeral

end Scoresheet.Text
