import Scoresheet.Proofs.TimeControl.NumeralFirst

/-!
# A game in so many minutes

What is made of `G/b+i` for all numerals `b` and `i`, however many digits they have
(`normalize_gameWording`). The increment is dropped if it is out of range.
-/

namespace Scoresheet

open Text

namespace TimeControl

variable {b i : Numeral} {t u : Text}

/-- The standard form of minutes with an increment that is dropped if it is out of range. Numerals
of too many digits are not converted. -/
def minutesAndIncrement (b i : Numeral) : Except OversizedNumeral (Option Text) :=
  if maxDigits < b.text.length then .error ⟨b.text.length⟩
  else if maxDigits < i.text.length then .error ⟨i.text.length⟩
  else .ok (if 60 * b.value ≤ maxCount then
      some (decimal (60 * b.value) ++ if i.value ≤ maxCount then '+' :: decimal i.value else [])
    else none)

/-- The same where an increment that is out of range leaves no standard form. -/
def checkedMinutes? (b i : Numeral) : Option Text :=
  if 60 * b.value ≤ maxCount ∧ i.value ≤ maxCount then
    some (decimal (60 * b.value) ++ '+' :: decimal i.value)
  else none

/-- Dropping an increment makes a difference only to minutes that are in range. -/
theorem minutesAndIncrement_eq_checked_iff : minutesAndIncrement b i = .ok (checkedMinutes? b i) ↔
    b.text.length ≤ maxDigits ∧ i.text.length ≤ maxDigits ∧
      (i.value ≤ maxCount ∨ maxCount < 60 * b.value) := by
  unfold minutesAndIncrement checkedMinutes?
  by_cases hb : maxDigits < b.text.length
  · simp [if_pos hb, Nat.not_le.2 hb]
  by_cases hi : maxDigits < i.text.length
  · simp [if_neg hb, if_pos hi, Nat.not_le.2 hi]
  rw [if_neg hb, if_neg hi]
  by_cases hminutes : 60 * b.value ≤ maxCount
  · by_cases hincrement : i.value ≤ maxCount
    · simp [hminutes, hincrement, Nat.le_of_not_lt hb, Nat.le_of_not_lt hi]
    · simp [hminutes, hincrement, Nat.not_lt.2 hminutes]
  · simp [hminutes, Nat.lt_of_not_le hminutes, Nat.le_of_not_lt hb, Nat.le_of_not_lt hi]

/-- The wording `G/b+i`. -/
def gameWording (b i : Numeral) : Text := 'G' :: '/' :: (b.text ++ '+' :: i.text)

/-! ## Its numerals -/

theorem mergePlus_of_not_mem (h : '+' ∉ t) : mergePlus t = t := by
  fun_induction mergePlus t with
  | case1 cs => exact absurd List.mem_cons_self h
  | case2 c cs _ ih => rw [ih fun hcs => h (List.mem_cons_of_mem c hcs)]
  | case3 => rfl

theorem mergePlus_append (h : '+' ∉ u) (t : Text) : mergePlus (u ++ t) = u ++ mergePlus t := by
  induction u with
  | nil => rfl
  | cons c u ih =>
    obtain ⟨hc, hu⟩ := not_or.1 (mt List.mem_cons.2 h)
    rw [List.cons_append, mergePlus, ih hu, List.cons_append]
    intro cs hplus
    exact absurd hplus.symm hc

/-- A single plus sign stays. -/
theorem mergePlus_sum (b i : Numeral) :
    mergePlus (b.text ++ '+' :: i.text) = b.text ++ '+' :: i.text := by
  have hplus : ∀ n : Numeral, '+' ∉ n.text := fun n => n.not_mem_text (by decide)
  rw [mergePlus_append (hplus b), mergePlus, mergePlus_of_not_mem (hplus i)]
  rintro cs - htext
  exact hplus i (htext ▸ List.mem_cons_self)

/-- Only digits and plus signs stand in a sum. -/
theorem not_mem_sum {c : Char} (hc : isAsciiDigit c = false) (hplus : c ≠ '+') :
    c ∉ b.text ++ '+' :: i.text := by
  simp [b.not_mem_text hc, i.not_mem_text hc, hplus]

theorem trim_sum (b i : Numeral) : trim (b.text ++ '+' :: i.text) = b.text ++ '+' :: i.text := by
  refine (isTight_of_visible (by simp) fun c hc => ?_).trim
  rcases List.mem_append.1 hc with hc | hc
  · exact isBlank_of_isAsciiDigit (b.isAsciiDigit_of_mem hc)
  · rcases List.mem_cons.1 hc with rfl | hc
    · decide
    · exact isBlank_of_isAsciiDigit (i.isAsciiDigit_of_mem hc)

theorem isSmall_of_mem_game : ∀ c ∈ '/' :: (b.text ++ '+' :: i.text), isSmall c = true := by
  intro c hc
  simp only [List.mem_cons, List.mem_append] at hc
  rcases hc with rfl | hc | rfl | hc
  · decide
  · exact isSmall_of_isAsciiDigit (b.isAsciiDigit_of_mem hc)
  · decide
  · exact isSmall_of_isAsciiDigit (i.isAsciiDigit_of_mem hc)

theorem lower_gameWording (b i : Numeral) :
    lower (gameWording b i) = 'g' :: '/' :: (b.text ++ '+' :: i.text) := by
  show 'g' :: lower ('/' :: (b.text ++ '+' :: i.text)) = _
  rw [lower_of_small isSmall_of_mem_game]

theorem afterGame?_gameWording (b i : Numeral) :
    afterGame? (gameWording b i) = some (b.text ++ '+' :: i.text) := by
  have hsemicolon : replaceEach [(";+", "+"), (";", "+")] (b.text ++ '+' :: i.text)
      = b.text ++ '+' :: i.text := by
    refine replaceEach_of_not_mem fun pair hpair => ⟨';', ?_, not_mem_sum (by decide) (by decide)⟩
    revert pair
    decide
  have hspacing : replaceEach afterGame?.plusSpacingAndTabs (b.text ++ '+' :: i.text)
      = b.text ++ '+' :: i.text := by
    have hpairs : ∀ pair ∈ afterGame?.plusSpacingAndTabs,
        ' ' ∈ pair.1.toList ∨ '\t' ∈ pair.1.toList := by decide
    refine replaceEach_of_not_mem fun pair hpair => ?_
    rcases hpairs pair hpair with hspace | htab
    · exact ⟨' ', hspace, not_mem_sum (by decide) (by decide)⟩
    · exact ⟨'\t', htab, not_mem_sum (by decide) (by decide)⟩
  unfold afterGame?
  rw [lower_gameWording]
  show some (trim (mergePlus (replaceEach afterGame?.plusSpacingAndTabs
    (replaceEach [(";+", "+"), (";", "+")] (trim (b.text ++ '+' :: i.text)))))) = _
  rw [trim_sum, hsemicolon, hspacing, mergePlus_sum, trim_sum]

theorem gameNumerals?_gameWording (b i : Numeral) :
    gameNumerals? (gameWording b i) = some (b.text, some i.text) := by
  have hbase : digits? (b.text ++ '+' :: i.text) = some (b.text, '+' :: i.text) :=
    digits?_numeral b rfl
  have hincrement : number? i.text = some (i.text, []) := by
    have hnumber := number?_numeral i (r := []) rfl
    rwa [List.append_nil] at hnumber
  unfold gameNumerals?
  rw [afterGame?_gameWording]
  show (digits? (b.text ++ '+' :: i.text) >>= _) = _
  rw [hbase]
  show (number? i.text >>= _) = _
  rw [hincrement]
  rfl

theorem inferGame_gameWording (b i : Numeral) : inferGame (gameWording b i) = (do
    match ← readCount b.text with
    | none => return none
    | some minutes =>
      let increment ← readCount i.text
      return some (.single .gameMinutes (minutesPeriod minutes none increment))) := by
  unfold inferGame
  rewrite [gameNumerals?_gameWording]
  rfl

/-! ## Other ways to read it -/

theorem tidy_gameWording (b i : Numeral) : tidy (gameWording b i) = .ok ⟨gameWording b i, []⟩ := by
  refine tidy_of_plain (List.cons_ne_nil _ _) fun c hc => ?_
  simp only [gameWording, List.mem_cons, List.mem_append] at hc
  rcases hc with rfl | rfl | hc | rfl | hc
  · decide
  · decide
  · exact isPlain_of_isAsciiDigit (b.isAsciiDigit_of_mem hc)
  · decide
  · exact isPlain_of_isAsciiDigit (i.isAsciiDigit_of_mem hc)

theorem readStandard_gameWording (b i : Numeral) : readStandard (gameWording b i) = .ok none := by
  have hcolon : ':' ∉ gameWording b i := by
    simp [gameWording, b.not_mem_text, i.not_mem_text, show isAsciiDigit ':' = false by decide]
  have hplus : '+' ∉ 'G' :: '/' :: b.text := by
    simp [b.not_mem_text, show isAsciiDigit '+' = false by decide]
  have hletter : readCount ['G'] = .ok none := readCount_of_mem (c := 'G') (by simp) (by decide)
  have hbase : readBase ('G' :: '/' :: b.text) = .ok none :=
    readBase_of_moves (by decide) hletter
  exact readStandard_of_readBase (by rfl) (by decide) hcolon hplus hbase

/-- What stands before the plus sign is no numeral, but what stands behind it is converted. -/
theorem inferSmallBase_gameWording (b i : Numeral) : inferSmallBase (gameWording b i) = (do
    let _ ← readCount i.text
    return none) := by
  have hparts : (gameWording b i).splitOn '+' = ['G' :: '/' :: b.text, i.text] := by
    have hplus : '+' ∉ 'G' :: '/' :: b.text := by simp [b.not_mem_text (c := '+') (by decide)]
    have hsplit : (gameWording b i).splitOn '+' = ('G' :: '/' :: b.text) :: i.text.splitOn '+' :=
      List.splitOn_append_cons_self_of_not_mem hplus i.text
    rwa [List.splitOn_eq_singleton (i.not_mem_text (by decide))] at hsplit
  have hletter : readCount ('G' :: '/' :: b.text) = .ok none :=
    readCount_of_mem List.mem_cons_self (by decide)
  unfold inferSmallBase
  rw [hparts]
  dsimp only
  rw [hletter]
  rfl

/-- The other templates want a numeral first, or nothing but digits and a plus sign. -/
theorem infer_gameWording (h : inferGame (gameWording b i) = .ok none) :
    infer (gameWording b i) = (do
      let _ ← readCount i.text
      return none) := by
  have hfold : foldCase (gameWording b i) = 'g' :: '/' :: (b.text ++ '+' :: i.text) := by
    show 'g' :: foldCase ('/' :: (b.text ++ '+' :: i.text)) = _
    rw [foldCase_of_small isSmall_of_mem_game]
  have hmove : inferApostrophePerMove (gameWording b i) = .ok none := by
    rw [inferApostrophePerMove, hfold]
    rfl
  have hcompact : inferCompactFide (gameWording b i) = .ok none := by
    rw [inferCompactFide, hfold]
    rfl
  have hfide : inferFideAdditional (gameWording b i) = .ok none := by
    rw [inferFideAdditional, hfold]
    rfl
  have htriple : inferTriplePlus (gameWording b i) = .ok none := by
    rw [inferTriplePlus, hfold]
    rfl
  have hslash : inferTwoStageSlash (gameWording b i) = .ok none := rfl
  have hminutes : inferCompactMinuteSecond (gameWording b i) = .ok none := by
    rw [inferCompactMinuteSecond, hfold]
    rfl
  have hclock : inferClockStyle (gameWording b i) = .ok none := by
    rw [inferClockStyle, hfold]
    rfl
  have hapostrophes : inferApostrophes (gameWording b i) = .ok none := by
    have hends : gameWording b i = ('G' :: '/' :: (b.text ++ ['+'])) ++ i.text := by
      simp [gameWording]
    rw [hends, inferApostrophes_append_numeral]
  have hnumber : inferSmallNumber (gameWording b i) = .ok none := rfl
  rw [infer, firstGuess_of_none h, firstGuess_of_none hmove, firstGuess_of_none hcompact,
    firstGuess_of_none hfide, firstGuess_of_none htriple, firstGuess_of_none hslash,
    firstGuess_of_none hminutes, firstGuess_of_none hclock, firstGuess_of_none hapostrophes,
    firstGuess, inferSmallBase_gameWording, firstGuess_of_none hnumber, firstGuess]
  cases readCount i.text <;> rfl

theorem inferFreeText_gameWording (b i : Numeral) :
    inferFreeText (gameWording b i) = .ok none := by
  have hletters : ∀ c, isAsciiDigit c = false → c ∉ ['g', '/', '+'] →
      c ∉ lower (gameWording b i) := by
    intro c hc hsigns
    simp only [List.mem_cons, List.not_mem_nil, or_false, not_or] at hsigns
    simp [lower_gameWording, b.not_mem_text hc, i.not_mem_text hc, hsigns]
  exact inferFreeText_of_not_mem (hletters 'm' (by decide) (by decide))
    (hletters 's' (by decide) (by decide))

/-- A digit at the end is no last word. -/
theorem dropQualifier?_gameWording (b i : Numeral) : dropQualifier? (gameWording b i) = none := by
  obtain ⟨u, c, hu, hc⟩ := i.exists_text_eq_concat
  have hconcat : gameWording b i = ('G' :: '/' :: (b.text ++ '+' :: u)) ++ [c] := by
    simp [gameWording, hu]
  rw [hconcat, dropQualifier?_of_getLast (isLetter_of_isAsciiDigit hc)]

end TimeControl

open TimeControl

/-- A number of minutes that is out of range is so in seconds. -/
theorem not_le_of_inRange?_eq_none {k : Nat} (h : inRange? k = none) : ¬60 * k ≤ maxCount := by
  unfold inRange? at h
  split at h
  · simp at h
  · omega

/-- The standard form of minutes with an increment that may have been dropped. -/
theorem toText_minutes (minutes : Nat) (i : Numeral) :
    Period.toText ⟨60 * minutes, none, inRange? i.value⟩
      = decimal (60 * minutes) ++ if i.value ≤ maxCount then '+' :: decimal i.value else [] := by
  unfold inRange?
  split <;> simp [Period.toText]

/-- A tidied wording is read as minutes with an increment that may be dropped. -/
structure IsReadAsMinutes (t : Text) (b i : Numeral) : Prop where
  /-- The minutes are converted first. -/
  oversizedMinutes : maxDigits < b.text.length → readQualified t = .error ⟨b.text.length⟩
  oversizedIncrement : b.text.length ≤ maxDigits → maxDigits < i.text.length →
    readQualified t = .error ⟨i.text.length⟩
  outOfRange : b.text.length ≤ maxDigits → i.text.length ≤ maxDigits → inRange? b.value = none →
    readQualified t = .ok none
  read : b.text.length ≤ maxDigits → i.text.length ≤ maxDigits →
    inRange? b.value = some b.value → ∃ how, readQualified t = .ok (some
      ((Guess.single how (minutesPeriod b.value none (inRange? i.value))).control,
        (Guess.single how (minutesPeriod b.value none (inRange? i.value))).remarks))

/-- **The standard form** of a wording that is read as minutes with an increment. -/
theorem IsReadAsMinutes.normalized {raw : Text} {tidied : Tidied}
    (h : IsReadAsMinutes tidied.text b i) (hblank : isBlankText raw = false)
    (htidy : tidy raw = .ok tidied) (hquotes : .ambiguousQuotes ∉ tidied.remarks) :
    normalizeTimeControl raw = minutesAndIncrement b i := by
  rw [normalizeTimeControl_of_tidy hblank htidy hquotes, minutesAndIncrement]
  by_cases hb : maxDigits < b.text.length
  · rw [if_pos hb, h.oversizedMinutes hb]
    rfl
  by_cases hi : maxDigits < i.text.length
  · rw [if_neg hb, if_pos hi, h.oversizedIncrement (Nat.le_of_not_lt hb) hi]
    rfl
  rw [if_neg hb, if_neg hi]
  cases hminutes : inRange? b.value with
  | none =>
    rw [h.outOfRange (Nat.le_of_not_lt hb) (Nat.le_of_not_lt hi) hminutes,
      if_neg (not_le_of_inRange?_eq_none hminutes)]
    rfl
  | some minutes =>
    obtain ⟨rfl, _⟩ := inRange?_eq_some_iff.1 hminutes
    obtain ⟨how, hread⟩ := h.read (Nat.le_of_not_lt hb) (Nat.le_of_not_lt hi) hminutes
    rw [hread]
    show Except.ok (TimeControl.normalized? _) = _
    rw [normalized?_minutes, toText_minutes]

theorem isReadAsMinutes_gameWording (b i : Numeral) : IsReadAsMinutes (gameWording b i) b i where
  oversizedMinutes := by
    intro hb
    have hgame := inferGame_gameWording b i
    rw [readCount_oversized hb] at hgame
    exact readQualified_of_error (readStandard_gameWording b i) (bind_eq_error hgame)
  oversizedIncrement := by
    intro hb hi
    have hgame := inferGame_gameWording b i
    rw [readCount_numeral hb, readCount_oversized hi] at hgame
    refine readQualified_of_error (readStandard_gameWording b i) ?_
    -- out of range or not, the increment is converted by one template or by another
    cases hminutes : inRange? b.value with
    | none =>
      rw [hminutes] at hgame
      rw [infer_gameWording hgame, readCount_oversized hi]
      rfl
    | some minutes =>
      rw [hminutes] at hgame
      exact bind_eq_error hgame
  outOfRange := by
    intro hb hi hminutes
    have hgame := inferGame_gameWording b i
    rw [readCount_numeral hb, hminutes] at hgame
    have hinfer : infer (gameWording b i) = .ok none := by
      rw [infer_gameWording hgame, readCount_numeral hi]
      rfl
    have htidied : readTidied (gameWording b i) = .ok none := by
      rw [readTidied_of_infer_none (readStandard_gameWording b i) hinfer, inferFreeText_gameWording]
      rfl
    exact readQualified_of_none htidied (by simp [dropQualifier?_gameWording])
  read := by
    intro hb hi hminutes
    have hgame := inferGame_gameWording b i
    rw [readCount_numeral hb, hminutes, readCount_numeral hi] at hgame
    exact ⟨.gameMinutes, readQualified_of_infer (readStandard_gameWording b i)
      (firstGuess_of_some hgame)⟩

/-- **`G/b+i` for all numerals**: the increment is dropped if it is out of range. -/
theorem normalize_gameWording (b i : Numeral) :
    normalizeTimeControl (gameWording b i) = minutesAndIncrement b i :=
  IsReadAsMinutes.normalized (isReadAsMinutes_gameWording b i) rfl (tidy_gameWording b i) (by simp)

end Scoresheet
