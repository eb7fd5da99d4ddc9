import Scoresheet.Proofs.TimeControl.NumeralFirst
import Scoresheet.Proofs.TimeControl.PlusSigns

/-!
# Two numerals with a plus sign

What is made of two numerals with a plus sign between them, and any number of spaces around it.
Tidying closes up two spaces on each side at most (`closeUp_spacedSum`). Where a space is left
nothing is made of the value; otherwise it is read like the two numerals with the bare sign
(`normalize_spacedSum`).
-/

namespace Scoresheet

open Text

namespace TimeControl

variable {b i : Numeral} {m n : Nat}

/-- Two numerals with a plus sign between them, which has spaces before and behind it. -/
def spacedSum (b i : Numeral) (before behind : Nat) : Text :=
  b.text ++ List.replicate before ' ' ++ '+' :: (List.replicate behind ' ' ++ i.text)

theorem spacedSum_zero (b i : Numeral) : spacedSum b i 0 0 = b.text ++ '+' :: i.text := by
  simp [spacedSum]

/-- A character that is neither a digit nor the sign nor a space. -/
theorem not_mem_spacedSum {c : Char} (hc : isAsciiDigit c = false) (hplus : c ≠ '+')
    (hspace : c ≠ ' ') : c ∉ spacedSum b i m n := by
  simp [spacedSum, b.not_mem_text hc, i.not_mem_text hc, hplus, hspace]

theorem plus_not_mem_before (b : Numeral) (m : Nat) : '+' ∉ b.text ++ List.replicate m ' ' := by
  simp [b.not_mem_text (c := '+') (by decide)]

theorem plus_not_mem_behind (n : Nat) (i : Numeral) : '+' ∉ List.replicate n ' ' ++ i.text := by
  simp [i.not_mem_text (c := '+') (by decide)]

/-! ## Tidying -/

theorem exists_spacedSum_eq_cons (b i : Numeral) (m n : Nat) :
    ∃ c cs, spacedSum b i m n = c :: cs ∧ isAsciiDigit c = true := by
  obtain ⟨c, cs, hb, hc⟩ := b.exists_text_eq_cons
  exact ⟨c, cs ++ List.replicate m ' ' ++ '+' :: (List.replicate n ' ' ++ i.text),
    by simp [spacedSum, hb], hc⟩

theorem exists_spacedSum_eq_concat (b i : Numeral) (m n : Nat) :
    ∃ u c, spacedSum b i m n = u ++ [c] ∧ isAsciiDigit c = true := by
  obtain ⟨u, c, hi, hc⟩ := i.exists_text_eq_concat
  exact ⟨b.text ++ List.replicate m ' ' ++ '+' :: (List.replicate n ' ' ++ u), c,
    by simp [spacedSum, hi], hc⟩

theorem isTight_spacedSum (b i : Numeral) (m n : Nat) : IsTight (spacedSum b i m n) where
  head := by
    obtain ⟨c, cs, h, hc⟩ := exists_spacedSum_eq_cons b i m n
    exact ⟨c, cs, h, isBlank_of_isAsciiDigit hc⟩
  last := by
    obtain ⟨u, c, h, hc⟩ := exists_spacedSum_eq_concat b i m n
    exact ⟨u, c, h, isBlank_of_isAsciiDigit hc⟩

theorem unwrap_spacedSum (b i : Numeral) (m n : Nat) :
    unwrap (spacedSum b i m n) = ⟨spacedSum b i m n, []⟩ := by
  obtain ⟨c, cs, hcons, hc⟩ := exists_spacedSum_eq_cons b i m n
  have hquote : isQuote c = false := isQuote_of_isPlain (isPlain_of_isAsciiDigit hc)
  refine unwrap_eq (isTight_spacedSum b i m n).trim (hcons ▸ isEnclosed_of_head hquote cs) ?_
  exact hasAmbiguousQuote_of_not_mem (not_mem_spacedSum (by decide) (by decide) (by decide))
    (not_mem_spacedSum (by decide) (by decide) (by decide))

theorem areOperands_numerals (b i : Numeral) : AreOperands b.text i.text where
  noSign c hc := by
    have hdigit : ∀ c ∈ "+-/:|_".toList, isAsciiDigit c = false :=
      List.all_iff_forall_prop.1 (by decide)
    exact ⟨b.not_mem_text (hdigit c hc), i.not_mem_text (hdigit c hc)⟩
  before h := b.not_mem_text (by decide) (List.mem_of_getLast? h)
  behind h := i.not_mem_text (by decide) (List.mem_of_head? h)

theorem closeUp_spacedSum (b i : Numeral) (m n : Nat) :
    closeUp (spacedSum b i m n) = ⟨spacedSum b i (spacesLeft m n).1 (spacesLeft m n).2,
      ifChanged (spacedSum b i m n) (spacedSum b i (spacesLeft m n).1 (spacesLeft m n).2)
        .operatorSpacing⟩ :=
  closeUp_aroundPlus (areOperands_numerals b i) m n

/-- **Tidying** does nothing but close up spaces. -/
theorem tidy_spacedSum (b i : Numeral) (m n : Nat) : ∃ tidied,
    tidy (spacedSum b i m n) = .ok tidied ∧
      tidied.text = spacedSum b i (spacesLeft m n).1 (spacesLeft m n).2 ∧
      .ambiguousQuotes ∉ tidied.remarks := by
  have hlast : ∀ k l : Nat, stripApostrophe (spacedSum b i k l) = .ok ⟨spacedSum b i k l, []⟩ := by
    intro k l
    obtain ⟨u, c, hconcat, hc⟩ := exists_spacedSum_eq_concat b i k l
    rw [hconcat]
    exact stripApostrophe_of_getLast (digit_ne hc (by decide))
  refine ⟨_, tidy_eq (unwrap_spacedSum b i m n) (closeUp_spacedSum b i m n) (hlast _ _), rfl, ?_⟩
  dsimp only
  rw [List.nil_append, List.append_nil, ifChanged]
  split <;> simp

/-! ## The sum in the standard form -/

/-- What is made of a numeral with spaces beside it. -/
def spacedCount? (spaces : Nat) (n : Numeral) : Option Nat :=
  if spaces = 0 then inRange? n.value else none

/-- What is made of the sum as a period. -/
def spacedPeriod? (b i : Numeral) (before behind : Nat) : Option Period :=
  (spacedCount? before b).bind fun base =>
    (spacedCount? behind i).map fun increment => ⟨base, none, some increment⟩

theorem splitOn_spacedSum (b i : Numeral) (m n : Nat) : (spacedSum b i m n).splitOn '+'
    = [b.text ++ List.replicate m ' ', List.replicate n ' ' ++ i.text] := by
  rw [spacedSum, List.splitOn_append_cons_self_of_not_mem (plus_not_mem_before b m),
    List.splitOn_eq_singleton (plus_not_mem_behind n i)]

theorem readCount_before (hb : b.text.length ≤ maxDigits) (m : Nat) :
    readCount (b.text ++ List.replicate m ' ') = .ok (spacedCount? m b) := by
  cases m with
  | zero => simpa [spacedCount?] using readCount_numeral hb
  | succ m => exact readCount_of_mem (c := ' ') (by simp [List.replicate_succ]) (by decide)

theorem readCount_behind (hi : i.text.length ≤ maxDigits) (n : Nat) :
    readCount (List.replicate n ' ' ++ i.text) = .ok (spacedCount? n i) := by
  cases n with
  | zero => simpa [spacedCount?] using readCount_numeral hi
  | succ n => exact readCount_of_mem (c := ' ') (by simp [List.replicate_succ]) (by decide)

section Short

variable (hb : b.text.length ≤ maxDigits) (hi : i.text.length ≤ maxDigits)
include hb hi

theorem readPeriod_spacedSum (m n : Nat) :
    readPeriod (spacedSum b i m n) = .ok (spacedPeriod? b i m n) := by
  have hslash : '/' ∉ b.text ++ List.replicate m ' ' := by
    simp [b.not_mem_text (c := '/') (by decide)]
  have hbase : readBase (b.text ++ List.replicate m ' ')
      = .ok ((spacedCount? m b).map fun base => ⟨base, none, none⟩) := by
    unfold readBase
    rw [List.splitOn_eq_singleton hslash]
    simp only [readCount_before hb]
    rfl
  unfold readPeriod spacedPeriod?
  rw [splitOn_spacedSum]
  simp only [hbase, readCount_behind hi]
  cases spacedCount? m b <;> rfl

theorem readStandard_spacedSum (m n : Nat) : readStandard (spacedSum b i m n)
    = .ok ((spacedPeriod? b i m n).bind fun p =>
        if looksLikeMinutes p then none else some (.periods p [] false)) := by
  obtain ⟨c, cs, hcons, hc⟩ := exists_spacedSum_eq_cons b i m n
  have hcolon : ':' ∉ spacedSum b i m n :=
    not_mem_spacedSum (by decide) (by decide) (by decide)
  have hread := readPeriod_spacedSum hb hi m n
  rw [hcons] at hcolon hread ⊢
  rw [readStandard_of_single (not_mem_signs_of_isAsciiDigit hc) hcolon, readSingle, hread]
  cases spacedPeriod? b i m n <;> rfl

end Short

/-! ## No template but one -/

section Spaces

variable (k : Nat) (t : Text)

theorem trimLeft_spaces : trimLeft (List.replicate k ' ' ++ t) = trimLeft t :=
  trimLeft_append (List.all_eq_true.2 fun _ hc => (List.mem_replicate.1 hc).2 ▸ rfl) t

theorem word?_spaces (w : String) : word? w (List.replicate k ' ' ++ t) = word? w t := by
  rw [word?, trimLeft_spaces, word?]

theorem oneOf?_spaces (ws : List String) : oneOf? ws (List.replicate k ' ' ++ t) = oneOf? ws t := by
  rw [oneOf?, trimLeft_spaces, oneOf?]

theorem number?_spaces : number? (List.replicate k ' ' ++ t) = number? t := by
  rw [number?, trimLeft_spaces, number?]

end Spaces

/-- What stands behind the first numeral. -/
def spacedIncrement (i : Numeral) (before behind : Nat) : Text :=
  List.replicate before ' ' ++ '+' :: (List.replicate behind ' ' ++ i.text)

theorem spacedSum_eq (b i : Numeral) (m n : Nat) :
    spacedSum b i m n = b.text ++ spacedIncrement i m n := List.append_assoc _ _ _

theorem endsNumeral_spacedIncrement (i : Numeral) (m n : Nat) :
    EndsNumeral (spacedIncrement i m n) := by
  cases m <;> rfl

theorem isSmall_of_mem_spacedIncrement :
    ∀ c ∈ spacedIncrement i m n, isSmall c = true := by
  intro c hc
  simp only [spacedIncrement, List.mem_append, List.mem_cons, List.mem_replicate] at hc
  rcases hc with ⟨_, rfl⟩ | rfl | ⟨_, rfl⟩ | hc
  · decide
  · decide
  · decide
  · exact isSmall_of_isAsciiDigit (i.isAsciiDigit_of_mem hc)

theorem word?_plus_spacedIncrement (i : Numeral) (m n : Nat) :
    word? "+" (spacedIncrement i m n) = some (List.replicate n ' ' ++ i.text) :=
  word?_spaces m _ "+"

theorem number?_behind (n : Nat) (i : Numeral) :
    number? (List.replicate n ' ' ++ i.text) = some (i.text, []) := by
  have hnumber := number?_numeral i (r := []) rfl
  rw [List.append_nil] at hnumber
  rw [number?_spaces, hnumber]

/-- **Both numerals are taken off** before a template asks for more. -/
theorem bind_spacedIncrement {α : Type} (i : Numeral) (m n : Nat) (f : Text × Text → Option α) :
    (word? "+" (spacedIncrement i m n) >>= fun t => number? t >>= f) = f (i.text, []) := by
  rw [word?_plus_spacedIncrement]
  show number? (List.replicate n ' ' ++ i.text) >>= f = _
  rw [number?_behind]
  rfl

theorem infer_spacedSum (b i : Numeral) (m n : Nat) :
    infer (spacedSum b i m n) = inferSmallBase (spacedSum b i m n) := by
  have hends := endsNumeral_spacedIncrement i m n
  have hsmall := isSmall_of_mem_spacedIncrement (i := i) (m := m) (n := n)
  have happostrophe : word? "'" (spacedIncrement i m n) = none := word?_spaces m _ "'"
  have hcolon : word? ":" (spacedIncrement i m n) = none := word?_spaces m _ ":"
  have hminutes : oneOf? minuteUnits (spacedIncrement i m n) = none := oneOf?_spaces m _ minuteUnits
  have hfide : fideAdditional? (b.text ++ spacedIncrement i m n) = none := by
    refine (bind_number? hends _).trans ?_
    show oneOf? minuteUnits (spacedIncrement i m n) >>= _ = none
    rw [hminutes]
    rfl
  have htriple : triplePlus? (b.text ++ spacedIncrement i m n) = none :=
    (bind_number? hends _).trans ((bind_spacedIncrement i m n _).trans rfl)
  have hslash : twoStageSlash? (b.text ++ spacedIncrement i m n) = none :=
    (bind_number? hends _).trans ((bind_spacedIncrement i m n _).trans rfl)
  have hrest := infer_numeral hsmall (apostrophePerMove?_numeral hends happostrophe)
    (stageAndRest?_numeral hends happostrophe) hfide htriple hslash
  have hseconds : inferCompactMinuteSecond (b.text ++ spacedIncrement i m n) = .ok none := by
    have hnumerals : compactMinuteSecond? (b.text ++ spacedIncrement i m n) = none := by
      rw [compactMinuteSecond?_numeral hends, maybe, hminutes]
      exact (bind_spacedIncrement i m n _).trans rfl
    rw [inferCompactMinuteSecond, foldCase_numeral hsmall, hnumerals]
    rfl
  have hclock := inferClockStyle_numeral (n := b) hends hsmall hcolon
  rw [firstGuess_of_none hseconds, firstGuess_of_none hclock, ← spacedSum_eq] at hrest
  have happostrophes : inferApostrophes (spacedSum b i m n) = .ok none := by
    have hends : spacedSum b i m n
        = (b.text ++ List.replicate m ' ' ++ '+' :: List.replicate n ' ') ++ i.text := by
      simp [spacedSum]
    rw [hends, inferApostrophes_append_numeral]
  have hnumber : inferSmallNumber (spacedSum b i m n) = .ok none :=
    inferSmallNumber_of_plus (by simp [spacedSum])
  refine hrest.trans ?_
  rw [firstGuess_of_none happostrophes]
  refine firstGuess_of_rest ?_
  rw [firstGuess_of_none hnumber, firstGuess]

theorem inferFreeText_spacedSum (b i : Numeral) (m n : Nat) :
    inferFreeText (spacedSum b i m n) = .ok none := by
  have hlower : lower (spacedSum b i m n) = spacedSum b i m n := by
    rw [spacedSum_eq]
    exact lower_of_small (isSmall_of_mem_numeral isSmall_of_mem_spacedIncrement)
  refine inferFreeText_of_not_mem ?_ ?_ <;> rw [hlower] <;>
    exact not_mem_spacedSum (by decide) (by decide) (by decide)

theorem dropQualifier?_spacedSum (b i : Numeral) (m n : Nat) :
    dropQualifier? (spacedSum b i m n) = none := by
  obtain ⟨u, c, hconcat, hc⟩ := exists_spacedSum_eq_concat b i m n
  rw [hconcat, dropQualifier?_of_getLast (isLetter_of_isAsciiDigit hc)]

/-! ## What is made of the sum -/

/-- The control that a single period without moves is read as: a short one is in minutes. -/
def readAs (p : Period) : TimeControl :=
  if looksLikeMinutes p then .periods { p with base := 60 * p.base } [] true
  else .periods p [] false

/-- A guess that a short period is in minutes. -/
theorem control_minutes_of_looksLikeMinutes {p : Period} (h : looksLikeMinutes p = true)
    (how : Interpretation) :
    (Guess.single how (minutesPeriod p.base none p.increment)).control = readAs p := by
  obtain ⟨hmoves, hbase⟩ := base_of_looksLikeMinutes h
  have hrange : inRange? (p.base * 60) = some (60 * p.base) := by
    refine inRange?_eq_some_iff.2 ⟨Nat.mul_comm _ _, ?_⟩
    simp only [maxCount]
    omega
  rw [minutesPeriod, secondsPeriod, hrange, readAs, if_pos h, ← hmoves]
  rfl

section Short

variable (hb : b.text.length ≤ maxDigits) (hi : i.text.length ≤ maxDigits)
include hb hi

theorem inferSmallBase_spacedSum (m n : Nat) : inferSmallBase (spacedSum b i m n) = (do
    match spacedCount? m b, spacedCount? n i with
    | some b, some i =>
      if b < 60 && i ≤ 60 then
        return some (.single .smallBaseAsMinutes (minutesPeriod b none (some i)))
      else if (b == 75 || b == 90) && i == 30 then
        return some (.single .classicalAsMinutes (minutesPeriod b none (some i)))
      else return none
    | _, _ => return none) := by
  unfold inferSmallBase
  rw [splitOn_spacedSum]
  dsimp only
  rw [readCount_before hb, readCount_behind hi]
  rfl

/-- **A space that is left**, or a number out of range, keeps the sum from being understood. -/
theorem readQualified_spacedSum_of_none (h : spacedPeriod? b i m n = none) :
    readQualified (spacedSum b i m n) = .ok none := by
  have hstandard := readStandard_spacedSum hb hi m n
  have hinfer : infer (spacedSum b i m n) = .ok none := by
    rw [infer_spacedSum, inferSmallBase_spacedSum hb hi]
    unfold spacedPeriod? at h
    cases hbase : spacedCount? m b with
    | none => rfl
    | some base =>
      cases hincrement : spacedCount? n i with
      | none => rfl
      | some increment => simp [hbase, hincrement] at h
  rw [h] at hstandard
  refine readQualified_of_none ?_ (by simp [dropQualifier?_spacedSum])
  rw [readTidied_of_infer_none hstandard hinfer, inferFreeText_spacedSum]
  rfl

theorem readQualified_spacedSum_of_some {p : Period} (h : spacedPeriod? b i m n = some p) :
    ∃ remarks, readQualified (spacedSum b i m n) = .ok (some (readAs p, remarks)) := by
  have hstandard := readStandard_spacedSum hb hi m n
  rw [h, Option.bind_some] at hstandard
  cases hminutes : looksLikeMinutes p with
  | false =>
    rw [hminutes, if_neg Bool.false_ne_true] at hstandard
    rw [readAs, hminutes, if_neg Bool.false_ne_true]
    exact ⟨[], readQualified_of_standard hstandard⟩
  | true =>
    rw [hminutes, if_pos rfl] at hstandard
    -- one of the two rules for short periods fits
    have hguess : ∃ how, infer (spacedSum b i m n)
        = .ok (some (.single how (minutesPeriod p.base none p.increment))) := by
      rw [infer_spacedSum, inferSmallBase_spacedSum hb hi]
      obtain ⟨base, hbase, hp⟩ := Option.bind_eq_some_iff.1 h
      obtain ⟨increment, hincrement, rfl⟩ := Option.map_eq_some_iff.1 hp
      rw [hbase, hincrement]
      rw [looksLikeMinutes, Bool.or_eq_true] at hminutes
      dsimp only
      by_cases hsmall : (decide (base < 60) && decide (increment ≤ 60)) = true
      · rw [if_pos hsmall]
        exact ⟨.smallBaseAsMinutes, rfl⟩
      · rw [if_neg hsmall, if_pos (hminutes.resolve_left hsmall)]
        exact ⟨.classicalAsMinutes, rfl⟩
    obtain ⟨how, hinfer⟩ := hguess
    have hread := readQualified_of_infer hstandard hinfer
    rw [control_minutes_of_looksLikeMinutes hminutes] at hread
    exact ⟨_, hread⟩

/-- **The standard form** of a sum, with any number of spaces in it. -/
theorem normalize_spacedSum (m n : Nat) : normalizeTimeControl (spacedSum b i m n)
    = .ok ((spacedPeriod? b i (spacesLeft m n).1 (spacesLeft m n).2).bind fun p =>
        (readAs p).normalized?) := by
  obtain ⟨tidied, htidy, htext, hquotes⟩ := tidy_spacedSum b i m n
  have hblank : isBlankText (spacedSum b i m n) = false := (isTight_spacedSum b i m n).isBlankText
  rw [normalizeTimeControl_of_tidy hblank htidy hquotes, htext]
  cases h : spacedPeriod? b i (spacesLeft m n).1 (spacesLeft m n).2 with
  | none =>
    rw [readQualified_spacedSum_of_none hb hi h]
    rfl
  | some p =>
    obtain ⟨remarks, hread⟩ := readQualified_spacedSum_of_some hb hi h
    rw [hread]
    rfl

end Short

/-- The standard form of a period that may be in minutes. -/
theorem normalized?_readAs (p : Period) : (readAs p).normalized?
    = some (Period.toText (if looksLikeMinutes p then { p with base := 60 * p.base } else p)) := by
  unfold readAs
  split <;> exact normalized?_single _ _

/-- Spaces that are closed up altogether: one at most on each side, or one or two on each side. -/
def AreClosedUp (before behind : Nat) : Prop :=
  (before ≤ 1 ∧ behind ≤ 1) ∨ ((1 ≤ before ∧ before ≤ 2) ∧ 1 ≤ behind ∧ behind ≤ 2)

instance (before behind : Nat) : Decidable (AreClosedUp before behind) :=
  inferInstanceAs (Decidable (_ ∨ _))

theorem areClosedUp_iff : AreClosedUp m n ↔ (spacesLeft m n).1 = 0 ∧ (spacesLeft m n).2 = 0 := by
  unfold AreClosedUp spacesLeft
  split <;> dsimp only <;> omega

theorem spacedPeriod?_eq (b i : Numeral) (m n : Nat) : spacedPeriod? b i m n =
    if (m = 0 ∧ n = 0) ∧ b.value ≤ maxCount ∧ i.value ≤ maxCount then
      some ⟨b.value, none, some i.value⟩
    else none := by
  unfold spacedPeriod? spacedCount? inRange?
  by_cases hm : m = 0
  · by_cases hn : n = 0
    · by_cases hbase : b.value ≤ maxCount
      · by_cases hincrement : i.value ≤ maxCount <;> simp [hm, hn, hbase, hincrement]
      · simp [hm, hn, hbase]
    · simp [hn]
  · simp [hm]

/-- The standard form of base and increment, which is in minutes if it is short. -/
def sumForm (base increment : Nat) : Text :=
  Period.toText ⟨if looksLikeMinutes ⟨base, none, some increment⟩ then 60 * base else base, none,
    some increment⟩

/-- **The standard form** of a sum: there is one if all spaces are closed up and both numbers are in
range. -/
theorem normalize_spacedSum_eq (hb : b.text.length ≤ maxDigits) (hi : i.text.length ≤ maxDigits)
    (m n : Nat) : normalizeTimeControl (spacedSum b i m n)
      = .ok (if AreClosedUp m n ∧ b.value ≤ maxCount ∧ i.value ≤ maxCount then
          some (sumForm b.value i.value) else none) := by
  rw [normalize_spacedSum hb hi, spacedPeriod?_eq]
  simp only [← areClosedUp_iff]
  split
  · rw [Option.bind_some, normalized?_readAs, sumForm]
    split <;> rfl
  · rfl

end TimeControl

open TimeControl

/-- **Spaces around a plus sign** do not matter as long as they are closed up: one at most on each
side, or one or two on each side. With other spaces nothing is made of the two numerals, so they do
not matter then exactly if one of the numbers is out of range. Without spaces the numerals are base
and increment of a period, which is in minutes if it is short. -/
theorem normalize_sum (b i : Numeral) (hb : b.text.length ≤ maxDigits)
    (hi : i.text.length ≤ maxDigits) (before behind : Nat) :
    normalizeTimeControl
        (b.text ++ List.replicate before ' ' ++ '+' :: (List.replicate behind ' ' ++ i.text))
      = (if AreClosedUp before behind then normalizeTimeControl (b.text ++ '+' :: i.text)
        else .ok none) ∧
    (normalizeTimeControl
        (b.text ++ List.replicate before ' ' ++ '+' :: (List.replicate behind ' ' ++ i.text))
      = normalizeTimeControl (b.text ++ '+' :: i.text) ↔
        AreClosedUp before behind ∨ maxCount < b.value ∨ maxCount < i.value) ∧
    normalizeTimeControl (b.text ++ '+' :: i.text)
      = .ok (if b.value ≤ maxCount ∧ i.value ≤ maxCount then
          some (sumForm b.value i.value) else none) := by
  have hnone : AreClosedUp 0 0 := by decide
  have hspaced := normalize_spacedSum_eq hb hi before behind
  have hplain := normalize_spacedSum_eq hb hi 0 0
  rw [spacedSum_zero] at hplain
  simp only [hnone, true_and] at hplain
  rw [spacedSum] at hspaced
  rw [hspaced, hplain]
  refine ⟨?_, ?_, rfl⟩
  · by_cases hclosed : AreClosedUp before behind <;> simp [hclosed]
  · rw [← Nat.not_le, ← Nat.not_le]
    by_cases hclosed : AreClosedUp before behind
    · simp [hclosed]
    · by_cases hrange : b.value ≤ maxCount ∧ i.value ≤ maxCount
      · simp [hclosed, hrange]
      · simpa [hclosed, hrange] using not_and_or.1 hrange

/-- Fifteen minutes and ten seconds, with a space on each side of the sign. -/
theorem normalize_sum_fifteenAndTen :
    normalizeTimeControl "15 + 10".toList = .ok (some "900+10".toList) ∧
      normalizeTimeControl "15+10".toList = .ok (some "900+10".toList) := by
  let fifteen : Numeral := ⟨"15".toList, by decide⟩
  let ten : Numeral := ⟨"10".toList, by decide⟩
  obtain ⟨hspaced, _, hplain⟩ := normalize_sum fifteen ten (by decide) (by decide) 1 1
  have hform : sumForm fifteen.value ten.value = "900+10".toList := by decide
  rw [if_pos (by decide), hform] at hplain
  exact ⟨hspaced.trans hplain, hplain⟩

/-- Two spaces behind the sign and none before it are not closed up. -/
theorem spaces_behind_sign_kept : normalizeTimeControl "15+  10".toList = .ok none ∧
    normalizeTimeControl "15+10".toList = .ok (some "900+10".toList) := by
  let fifteen : Numeral := ⟨"15".toList, by decide⟩
  let ten : Numeral := ⟨"10".toList, by decide⟩
  have hspaced := normalize_spacedSum_eq (b := fifteen) (i := ten) (by decide) (by decide) 0 2
  have hplain := normalize_spacedSum_eq (b := fifteen) (i := ten) (by decide) (by decide) 0 0
  have hform : sumForm fifteen.value ten.value = "900+10".toList := by decide
  rw [if_neg (by decide)] at hspaced
  rw [if_pos (by decide), hform] at hplain
  exact ⟨hspaced, hplain⟩

end Scoresheet
