import Scoresheet.Text.Numeral

/-!
# Numerals that were written

A decimal numeral consists of ASCII digits (`isNumeral_decimal`), so no reader of numbers takes
anything off it and the looser reader of whole numbers gives the number back as well
(`readInteger?_decimal`).
-/

namespace Scoresheet.Text

theorem isNumeral_decimal (n : Nat) : isNumeral (decimal n) = true := by
  have hdigits : ∀ c ∈ Nat.toDigits 10 n, isAsciiDigit c = true := by
    intro c hc
    have hdigit := Nat.isDigit_of_mem_toDigits (by decide) (by decide) hc
    simp only [Char.isDigit, Bool.and_eq_true, decide_eq_true_eq] at hdigit
    simp only [isAsciiDigit, Bool.and_eq_true, decide_eq_true_eq]
    exact hdigit
  unfold isNumeral decimal
  rw [Bool.and_eq_true]
  exact ⟨by simp [Nat.toDigits_ne_nil], List.all_eq_true.2 hdigits⟩

theorem decimal_injective {m n : Nat} (h : decimal m = decimal n) : m = n := by
  have hread := congrArg (Nat.ofDigitChars 10 · 0) h
  simpa only [decimal, Nat.ofDigitChars_toDigits (b := 10) (by decide) (by decide)] using hread

/-- A smaller number has no more digits. -/
theorem length_decimal_le {m n : Nat} (h : m ≤ n) : (decimal m).length ≤ (decimal n).length := by
  have hpos : 0 < (decimal n).length :=
    List.length_pos_iff.2 (ne_nil_of_isNumeral (isNumeral_decimal n))
  have hn := (Nat.length_toDigits_le_iff (by decide) hpos).1 (Nat.le_refl (decimal n).length)
  exact (Nat.length_toDigits_le_iff (by decide) hpos).2 (Nat.lt_of_le_of_lt h hn)

/-! ## Digits -/

theorem exists_eq_ofNat {c : Char} (h : isAsciiDigit c = true) :
    ∃ n, n < 10 ∧ c = Char.ofNat (0x30 + n) := by
  rw [isAsciiDigit, Bool.and_eq_true, decide_eq_true_eq, decide_eq_true_eq] at h
  have hlow : 0x30 ≤ c.toNat := h.1
  have hhigh : c.toNat ≤ 0x39 := h.2
  refine ⟨c.toNat - 0x30, by omega, ?_⟩
  rw [show 0x30 + (c.toNat - 0x30) = c.toNat by omega, Char.ofNat_toNat]

/-- What holds of the ten digits. -/
theorem of_digits {P : Char → Prop} (hall : ∀ n < 10, P (Char.ofNat (0x30 + n))) {c : Char}
    (h : isAsciiDigit c = true) : P c := by
  obtain ⟨n, hn, rfl⟩ := exists_eq_ofNat h
  exact hall n hn

theorem isBlank_of_isAsciiDigit {c : Char} (h : isAsciiDigit c = true) : isBlank c = false :=
  of_digits (P := fun c => isBlank c = false) (by decide) h

theorem digit_ne {c d : Char} (hc : isAsciiDigit c = true) (hd : isAsciiDigit d = false) :
    c ≠ d := by
  rintro rfl
  exact Bool.noConfusion (hc.symm.trans hd)

/-- A digit is neither a sign nor a low line. -/
theorem ne_of_isAsciiDigit {c : Char} (h : isAsciiDigit c = true) :
    c ≠ '-' ∧ c ≠ '+' ∧ c ≠ '_' :=
  ⟨digit_ne h (by decide), digit_ne h (by decide), digit_ne h (by decide)⟩

theorem isDecimalDigit_of_isAsciiDigit {c : Char} (h : isAsciiDigit c = true) :
    isDecimalDigit c = true :=
  of_digits (P := fun c => isDecimalDigit c = true) (by decide) h

/-- An ASCII digit is a decimal digit and keeps its form. -/
theorem asciiDigit_of_isAsciiDigit {c : Char} (h : isAsciiDigit c = true) :
    isDecimalDigit c = true ∧ asciiDigit c = c :=
  of_digits (P := fun c => isDecimalDigit c = true ∧ asciiDigit c = c) (by decide) h

/-! ## Reading whole numbers -/

/-- ASCII digits stay as they are where digits of any script are read. -/
theorem groupedDigits?_of_all : ∀ {t : Text}, t ≠ [] → (∀ c ∈ t, isAsciiDigit c = true) →
    groupedDigits? t = some t
  | [c], _, h => by
    obtain ⟨hdecimal, hvalue⟩ := asciiDigit_of_isAsciiDigit (h c List.mem_cons_self)
    rw [groupedDigits?, if_pos hdecimal, hvalue]
  | c :: d :: t, _, h => by
    obtain ⟨hdecimal, hvalue⟩ := asciiDigit_of_isAsciiDigit (h c List.mem_cons_self)
    obtain ⟨_, _, hd⟩ := ne_of_isAsciiDigit (h d (by simp))
    have ih := groupedDigits?_of_all (List.cons_ne_nil d t)
      fun e he => h e (List.mem_cons_of_mem c he)
    rw [groupedDigits?.eq_4 c d t hd, if_pos hdecimal, ih, hvalue]
    rfl

theorem withoutMargins_of_all {t : Text} (h : ∀ c ∈ t, isBlank c = false) :
    withoutMargins t = t := by
  have hmargin : ∀ {u : Text}, (∀ c ∈ u, isBlank c = false) → u.dropWhile isMargin = u := by
    intro u hu
    cases u with
    | nil => rfl
    | cons c u =>
      refine List.dropWhile_cons_of_neg ?_
      simp [isMargin, hu c List.mem_cons_self]
  rw [withoutMargins, hmargin h, hmargin (by simpa using h), List.reverse_reverse]

/-- **A whole number is read back from its numeral**, up to the limit of digits. -/
theorem readInteger?_decimal {n : Nat} (h : (decimal n).length ≤ maxDigits) :
    readInteger? (decimal n) = some (n : Int) := by
  have hnumeral := isNumeral_decimal n
  have hdigits : ∀ c ∈ decimal n, isAsciiDigit c = true :=
    fun _ => isAsciiDigit_of_isNumeral hnumeral
  have hsign : ∀ c ∈ decimal n, c ≠ '-' ∧ c ≠ '+' ∧ c ≠ '_' :=
    fun c hc => ne_of_isAsciiDigit (hdigits c hc)
  rw [readInteger?, withoutMargins_of_all fun c hc => isBlank_of_isAsciiDigit (hdigits c hc)]
  split
  · rename_i heq
    exact absurd rfl (hsign _ (heq ▸ List.mem_cons_self)).1
  · rename_i heq
    exact absurd rfl (hsign _ (heq ▸ List.mem_cons_self)).2.1
  · have hgrouped := groupedDigits?_of_all (ne_nil_of_isNumeral hnumeral) hdigits
    simp only [hgrouped, Option.bind_some, read_decimal h]
    rfl

end Scoresheet.Text
