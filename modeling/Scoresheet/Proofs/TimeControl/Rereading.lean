import Scoresheet.Proofs.TimeControl.Apostrophes
import Scoresheet.Proofs.TimeControl.Sums
import Scoresheet.Proofs.TimeControl.WholeMinutes

/-!
# The standard form is read again

What was read of a value is written in the standard form, and that text is read again. The same
control comes back, but for a single short period, which is taken for minutes then
(`readTimeControl_normalized`). So the standard form of a standard form is the same text unless the
control is such a period, and it does not change a second time (`normalize_again`).
-/

namespace Scoresheet

open Text TimeControl

namespace TimeControl

/-! ## Texts of plain characters -/

theorem readTimeControl_of_plain {t : Text} {control : TimeControl} {remarks : List Remark}
    (hne : t ≠ []) (hplain : ∀ c ∈ t, isPlain c = true)
    (h : readQualified t = .ok (some (control, remarks))) :
    readTimeControl t = .ok (some ⟨t, control, remarks⟩) := by
  have hblank : isBlankText t = false :=
    (isTight_of_visible hne fun c hc => isBlank_of_isPlain (hplain c hc)).isBlankText
  rw [readTimeControl_of_tidy hblank (tidy_of_plain hne hplain) (by simp), h]
  rfl

/-! ## Controls that are read again -/

/-- **A single short period** is taken for minutes when it is read again. -/
theorem readQualified_of_looksLikeMinutes {p : Period} (h : looksLikeMinutes p = true) :
    ∃ remarks, readQualified p.toText = .ok (some (readAs p, remarks)) := by
  have hrange := inRange_of_looksLikeMinutes h
  obtain ⟨base, moves, increment⟩ := p
  obtain ⟨rfl, _⟩ : moves = none ∧ _ := base_of_looksLikeMinutes h
  have hbase : IsCount (.ofNat base) := isCount_ofNat hrange.base
  cases increment with
  | none =>
    have hsmall : base < 60 := by simpa [looksLikeMinutes] using h
    have hvalue : (Numeral.ofNat base).value = base := Numeral.value_ofNat base
    have htext : Period.toText ⟨base, none, none⟩ = (Numeral.ofNat base).text := by
      simp [Period.toText, Numeral.ofNat]
    have hstandard := readStandard_numeral hbase
    have hinfer := infer_smallNumber hbase (hvalue.symm ▸ hsmall)
    rw [hvalue, if_pos hsmall] at hstandard
    rw [hvalue] at hinfer
    have hread := readQualified_of_infer hstandard hinfer
    rw [control_minutes_of_looksLikeMinutes h, ← htext] at hread
    exact ⟨_, hread⟩
  | some increment =>
    have hincrement : IsCount (.ofNat increment) := isCount_ofNat (hrange.increment increment rfl)
    have htext : Period.toText ⟨base, none, some increment⟩
        = spacedSum (.ofNat base) (.ofNat increment) 0 0 := by
      simp [Period.toText, Numeral.ofNat, spacedSum_zero]
    have hperiod : spacedPeriod? (.ofNat base) (.ofNat increment) 0 0
        = some ⟨base, none, some increment⟩ := by
      rw [spacedPeriod?_eq, if_pos ⟨⟨rfl, rfl⟩, hbase.inRange, hincrement.inRange⟩,
        Numeral.value_ofNat, Numeral.value_ofNat]
    rw [htext]
    exact readQualified_spacedSum_of_some hbase.isShort hincrement.isShort hperiod

/-- What is made of a control that is written and read again. -/
def readAgain : TimeControl → TimeControl
  | .periods p [] _ => readAs p
  | .periods first later _ => .periods first later false
  | control => control

theorem readQualified_periodsText {first : Period} {later : List Period}
    (h : ∀ p ∈ first :: later, p.InRange) (inferred : Bool) : ∃ remarks,
      readQualified (periodsText (first :: later))
        = .ok (some (readAgain (.periods first later inferred), remarks)) := by
  cases later with
  | nil =>
    cases hminutes : looksLikeMinutes first with
    | true =>
      rw [periodsText_singleton]
      exact readQualified_of_looksLikeMinutes hminutes
    | false =>
      have hread : readAgain (.periods first [] inferred) = .periods first [] false := by
        rw [readAgain, readAs, hminutes, if_neg Bool.false_ne_true]
      rw [hread]
      exact ⟨[], readQualified_of_standard (readStandard_periodsText h fun _ => hminutes)⟩
  | cons second later =>
    refine ⟨[], readQualified_of_standard (readStandard_periodsText h fun hlater => ?_)⟩
    exact absurd hlater (List.cons_ne_nil second later)

theorem readStandard_sandclock {seconds : Nat} (h : seconds ≤ maxCount) :
    readStandard ('*' :: decimal seconds) = .ok (some (.sandclock seconds)) := by
  have hread : readSandclock ('*' :: decimal seconds) = .ok (some seconds) := by
    have hcount := (isCount_ofNat h).readCount
    rwa [Numeral.value_ofNat] at hcount
  have hunknown : ('*' :: decimal seconds == ['?']) = false := by simp
  have hunlimited : ('*' :: decimal seconds == ['-']) = false := by simp
  rw [readStandard, hunknown, hunlimited, hread]
  rfl

/-- **The standard form of a control** is read again. -/
theorem readTimeControl_normalized {control : TimeControl} {n : Text}
    (hrange : ∀ p ∈ control.periodList, p.InRange) (hn : control.normalized? = some n) :
    ∃ remarks, readTimeControl n = .ok (some ⟨n, control.readAgain, remarks⟩) := by
  cases control with
  | unknown stated =>
    cases stated with
    | false => simp [normalized?] at hn
    | true =>
      obtain rfl : ['?'] = n := Option.some.inj hn
      exact ⟨[], readTimeControl_of_plain (by simp) (List.all_eq_true.1 (by decide))
        (readQualified_of_standard rfl)⟩
  | unlimited =>
    obtain rfl : ['-'] = n := Option.some.inj hn
    exact ⟨[], readTimeControl_of_plain (by simp) (List.all_eq_true.1 (by decide))
      (readQualified_of_standard rfl)⟩
  | sandclock seconds =>
    obtain rfl : '*' :: decimal seconds = n := Option.some.inj hn
    have hseconds : (⟨seconds, none, none⟩ : Period).InRange := hrange _ (List.mem_singleton.2 rfl)
    have hplain : ∀ c ∈ '*' :: decimal seconds, isPlain c = true := by
      refine List.forall_mem_cons.2 ⟨by decide, fun c hc => ?_⟩
      exact isPlain_of_isAsciiDigit (Numeral.isAsciiDigit_of_mem (n := .ofNat seconds) hc)
    have hstandard := readStandard_sandclock hseconds.base
    exact ⟨[], readTimeControl_of_plain (by simp) hplain (readQualified_of_standard hstandard)⟩
  | periods first later inferred =>
    obtain rfl : periodsText (first :: later) = n := Option.some.inj hn
    obtain ⟨remarks, hread⟩ := readQualified_periodsText hrange inferred
    obtain ⟨c, cs, htext, _⟩ := exists_periodsText_eq_cons (List.cons_ne_nil first later)
    exact ⟨remarks, readTimeControl_of_plain (by simp [htext])
      (fun _ => isPlain_of_mem_periodsText) hread⟩
  | oversized => simp [normalized?] at hn

/-! ## The same control -/

variable {control : TimeControl} {p : Period} {inferred : Bool}

theorem readAs_of_looksLikeMinutes (h : looksLikeMinutes p = true) :
    readAs p = .periods { p with base := 60 * p.base } [] true := by
  rw [readAs, if_pos h]

/-- A single period that is empty or not short stays the same. -/
theorem exists_readAs_eq (h : looksLikeMinutes p = true → p.base = 0) :
    ∃ inferred, readAs p = .periods p [] inferred := by
  cases hminutes : looksLikeMinutes p with
  | true =>
    refine ⟨true, (readAs_of_looksLikeMinutes hminutes).trans ?_⟩
    obtain ⟨base, moves, increment⟩ := p
    obtain rfl : base = 0 := h hminutes
    rfl
  | false => exact ⟨false, by rw [readAs, hminutes, if_neg Bool.false_ne_true]⟩

/-- **The same periods are read again**, except for a single short one. -/
theorem readAgain_of_not_isMinuteLike (h : ¬IsMinuteLike control) :
    control.readAgain.normalized? = control.normalized? ∧
      control.readAgain.category? = control.category? := by
  cases control with
  | periods first later inferred =>
    cases later with
    | nil =>
      have hbase : looksLikeMinutes first = true → first.base = 0 := fun hminutes =>
        Nat.eq_zero_of_not_pos fun hpos => h ⟨first, inferred, rfl, hminutes, hpos⟩
      obtain ⟨_, hread⟩ := exists_readAs_eq hbase
      rw [readAgain, hread]
      exact ⟨rfl, rfl⟩
    | cons second later => exact ⟨rfl, rfl⟩
  | unknown | unlimited | sandclock | oversized => exact ⟨rfl, rfl⟩

/-- What was taken for minutes is not short in seconds. -/
theorem not_isMinuteLike_readAs (p : Period) : ¬IsMinuteLike (readAs p) := by
  rintro ⟨q, inferred, hread, hminutes, hbase⟩
  unfold readAs at hread
  split at hread
  · obtain rfl := (TimeControl.periods.inj hread).1
    exact not_dvd_of_looksLikeMinutes hminutes hbase ⟨p.base, rfl⟩
  · rename_i hlarge
    exact hlarge ((TimeControl.periods.inj hread).1 ▸ hminutes)

theorem not_isMinuteLike_readAgain (control : TimeControl) : ¬IsMinuteLike control.readAgain := by
  cases control with
  | periods first later inferred =>
    cases later with
    | nil => exact not_isMinuteLike_readAs first
    | cons second later =>
      rintro ⟨p, inferred, hread, _⟩
      exact absurd (TimeControl.periods.inj hread).2.1 (List.cons_ne_nil second later)
  | unknown | unlimited | sandclock | oversized =>
    rintro ⟨p, inferred, hread, _⟩
    simp [readAgain] at hread

theorem inRange_minutes (h : looksLikeMinutes p = true) :
    Period.InRange { p with base := 60 * p.base } := by
  have hbase := (base_of_looksLikeMinutes h).2
  have hrange := inRange_of_looksLikeMinutes h
  refine ⟨?_, hrange.moves, hrange.increment⟩
  simp only [maxCount]
  omega

theorem inRange_readAgain (h : ∀ p ∈ control.periodList, p.InRange) :
    ∀ p ∈ control.readAgain.periodList, p.InRange := by
  cases control with
  | periods first later inferred =>
    cases later with
    | nil =>
      show ∀ p ∈ (readAs first).periodList, p.InRange
      unfold readAs
      split
      · rename_i hminutes
        exact List.forall_mem_singleton.2 (inRange_minutes hminutes)
      · exact h
    | cons second later => exact h
  | unknown | unlimited | sandclock | oversized => exact h

theorem exists_normalized?_readAgain {n : Text} (hn : control.normalized? = some n) :
    ∃ n', control.readAgain.normalized? = some n' := by
  cases control with
  | periods first later inferred =>
    cases later with
    | nil => exact ⟨_, normalized?_readAs first⟩
    | cons second later => exact ⟨n, hn⟩
  | unknown | unlimited | sandclock | oversized => exact ⟨n, hn⟩

/-! ## Standard forms of standard forms -/

/-- The text is a single short period that is not empty. -/
def IsShorthand (t : Text) : Prop :=
  ∃ p : Period, t = p.toText ∧ looksLikeMinutes p = true ∧ 0 < p.base

theorem normalizeTimeControl_of_read {t : Text} {r : TimeControlReading}
    (h : readTimeControl t = .ok (some r)) :
    normalizeTimeControl t = .ok r.control.normalized? := by
  rw [normalizeTimeControl, h]
  rfl

theorem timeControlCategory_of_read {t : Text} {r : TimeControlReading}
    (h : readTimeControl t = .ok (some r)) :
    timeControlCategory t = .ok r.control.category? := by
  rw [timeControlCategory, h]
  rfl

/-- Who has a standard form has a reading. -/
theorem exists_of_normalize {raw n : Text} (h : normalizeTimeControl raw = .ok (some n)) :
    ∃ r, readTimeControl raw = .ok (some r) ∧ r.control.normalized? = some n := by
  obtain ⟨read, hread, h⟩ := bind_eq_ok.1 h
  obtain ⟨r, rfl, hn⟩ := Option.bind_eq_some_iff.1 (Except.ok.inj h)
  exact ⟨r, hread, hn⟩

/-- Periods in range that are written alike are the same. -/
theorem toText_inj {p q : Period} (hp : p.InRange) (hq : q.InRange) (h : p.toText = q.toText) :
    p = q := by
  have hread := readPeriod_period hp
  rw [h, readPeriod_period hq] at hread
  exact (Option.some.inj (Except.ok.inj hread)).symm

theorem isShorthand_of_isMinuteLike {n : Text} (h : IsMinuteLike control)
    (hn : control.normalized? = some n) : IsShorthand n := by
  obtain ⟨p, inferred, rfl, hminutes, hbase⟩ := h
  rw [normalized?_single] at hn
  exact ⟨p, (Option.some.inj hn).symm, hminutes, hbase⟩

/-- **A single short period** is in minutes when it is read again. -/
theorem normalize_of_looksLikeMinutes (h : looksLikeMinutes p = true) :
    normalizeTimeControl p.toText = .ok (some (Period.toText { p with base := 60 * p.base })) := by
  have hrange : ∀ q ∈ (TimeControl.periods p [] false).periodList, q.InRange :=
    List.forall_mem_singleton.2 (inRange_of_looksLikeMinutes h)
  obtain ⟨remarks, hread⟩ := readTimeControl_normalized hrange (normalized?_single p false)
  rw [normalizeTimeControl_of_read hread]
  show Except.ok (readAs p).normalized? = _
  rw [readAs_of_looksLikeMinutes h, normalized?_single]

/-- It is another text then. -/
theorem normalize_ne_of_isShorthand {n : Text} (h : IsShorthand n) :
    normalizeTimeControl n ≠ .ok (some n) := by
  obtain ⟨p, rfl, hminutes, hbase⟩ := h
  rw [normalize_of_looksLikeMinutes hminutes]
  intro hsame
  have hperiod := toText_inj (inRange_minutes hminutes) (inRange_of_looksLikeMinutes hminutes)
    (Option.some.inj (Except.ok.inj hsame))
  have hmultiple : 60 * p.base = p.base := congrArg Period.base hperiod
  omega

end TimeControl

/-- **The standard form of a standard form** is the same text, with the same speed class, unless the
text is a single short period that is not empty. Such a period is in minutes when it is read again;
it comes from seconds with two apostrophes or from free text only. The standard form does not change
a second time. -/
theorem normalize_again (raw n : Text) (hlong : ¬HasLongRun raw)
    (h : normalizeTimeControl raw = .ok (some n)) :
    (normalizeTimeControl n = .ok (some n) ↔ ¬IsShorthand n) ∧
      (¬IsShorthand n → timeControlCategory n = timeControlCategory raw) ∧
      (∀ p : Period, n = p.toText → looksLikeMinutes p = true →
        normalizeTimeControl n = .ok (some (Period.toText { p with base := 60 * p.base }))) ∧
      (IsShorthand n → ∃ r, readTimeControl raw = .ok (some r) ∧ TellSeconds r.remarks) ∧
      ∃ n', normalizeTimeControl n = .ok (some n') ∧ normalizeTimeControl n' = .ok (some n') := by
  obtain ⟨r, hr, hn⟩ := exists_of_normalize h
  have hrange := inRange_of_readTimeControl hlong hr
  obtain ⟨remarks, hread⟩ := readTimeControl_normalized hrange hn
  have hsame : ¬IsMinuteLike r.control →
      normalizeTimeControl n = .ok (some n) ∧ timeControlCategory n = timeControlCategory raw := by
    intro hlarge
    obtain ⟨hnormalized, hcategory⟩ := readAgain_of_not_isMinuteLike hlarge
    rw [normalizeTimeControl_of_read hread, timeControlCategory_of_read hread,
      timeControlCategory_of_read hr]
    exact ⟨congrArg Except.ok (hnormalized.trans hn), congrArg Except.ok hcategory⟩
  have hlarge : ¬IsShorthand n → ¬IsMinuteLike r.control :=
    fun hshort hminutes => hshort (isShorthand_of_isMinuteLike hminutes hn)
  refine ⟨⟨fun hfixed hshort => normalize_ne_of_isShorthand hshort hfixed,
    fun hshort => (hsame (hlarge hshort)).1⟩, fun hshort => (hsame (hlarge hshort)).2, ?_, ?_, ?_⟩
  · rintro p rfl hminutes
    exact normalize_of_looksLikeMinutes hminutes
  · intro hshort
    refine ⟨r, hr, tellSeconds_of_readTimeControl hlong hr ?_⟩
    by_contra hminutes
    exact normalize_ne_of_isShorthand hshort (hsame hminutes).1
  · obtain ⟨n', hn'⟩ := exists_normalized?_readAgain hn
    obtain ⟨_, hthird⟩ := readTimeControl_normalized (inRange_readAgain hrange) hn'
    have hfixed := (readAgain_of_not_isMinuteLike (not_isMinuteLike_readAgain r.control)).1
    refine ⟨n', ?_, ?_⟩
    · rw [normalizeTimeControl_of_read hread]
      exact congrArg Except.ok hn'
    · rw [normalizeTimeControl_of_read hthird]
      exact congrArg Except.ok (hfixed.trans hn')

/-- Three minutes with two seconds for each move are the same when they are read again. -/
theorem normalize_again_threeAndTwo :
    normalizeTimeControl "3+2".toList = .ok (some "180+2".toList) ∧
      normalizeTimeControl "180+2".toList = .ok (some "180+2".toList) ∧
      timeControlCategory "180+2".toList = timeControlCategory "3+2".toList := by
  let p : Period := ⟨180, none, some 2⟩
  have hp : p.InRange := ⟨by decide, by decide, by decide⟩
  have hread : normalizeTimeControl "3+2".toList = .ok (some "180+2".toList) :=
    normalize_of_looksLikeMinutes (p := ⟨3, none, some 2⟩) (by decide)
  have hshort : ¬IsShorthand "180+2".toList := by
    rintro ⟨q, htext, hminutes, _⟩
    have hsame : p.toText = q.toText := Eq.trans (by decide) htext
    obtain rfl : p = q := toText_inj hp (inRange_of_looksLikeMinutes hminutes) hsame
    exact absurd hminutes (by decide)
  have hlong : ¬HasLongRun "3+2".toList := not_hasLongRun_of_length_le (by decide)
  obtain ⟨hiff, hcategory, _⟩ := normalize_again "3+2".toList "180+2".toList hlong hread
  exact ⟨hread, hiff.2 hshort, hcategory hshort⟩

/-- Twenty-nine seconds are taken for minutes when they are read again. -/
theorem secondsWithApostrophes_as_minutes : ¬HasLongRun "29''".toList ∧
    normalizeTimeControl "29''".toList = .ok (some "29".toList) ∧
    normalizeTimeControl "29".toList = .ok (some "1740".toList) := by
  have hcount : IsCount ⟨"29".toList, by decide⟩ := ⟨by decide, by decide⟩
  have hminutes : looksLikeMinutes ⟨29, none, none⟩ = true := by decide
  exact ⟨not_hasLongRun_of_length_le (by decide), normalize_doubleApostrophe hcount,
    normalize_of_looksLikeMinutes hminutes⟩

end Scoresheet
