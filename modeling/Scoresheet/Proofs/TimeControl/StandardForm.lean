import Scoresheet.Proofs.Text.Joining
import Scoresheet.Proofs.TimeControl.Tidying
import Scoresheet.TimeControl.Reading

/-!
# The standard form is read as it is written

Periods that are written are read back from their text, with no remark, except that a single short
period is taken for minutes (`standard_form_roundTrip`). What is read in the standard form is one of
four kinds of text, in which all numbers are in range (`standard_of_readStandard`).
-/

namespace Scoresheet

open Text TimeControl

/-! ## Characters of periods -/

namespace PeriodNumerals

/-- A character of a period as it is written. -/
def isPeriodChar (c : Char) : Bool := isAsciiDigit c || c == '/' || c == '+'

theorem isPeriodChar_of_mem {s : PeriodNumerals} {c : Char} (h : c ∈ s.toText) :
    isPeriodChar c = true := by
  have hnumeral : ∀ n : Numeral, c ∈ n.text → isPeriodChar c = true := by
    intro n hc
    simp [isPeriodChar, Numeral.isAsciiDigit_of_mem hc]
  have hbase : c ∈ s.spelledBase Numeral.text → isPeriodChar c = true := by
    unfold spelledBase
    cases s.moves with
    | none => exact hnumeral s.base
    | some m =>
      intro hc
      rcases List.mem_append.1 hc with hc | hc
      · exact hnumeral m hc
      · rcases List.mem_cons.1 hc with rfl | hc
        · decide
        · exact hnumeral s.base hc
  unfold toText spelled at h
  cases hi : s.increment with
  | none =>
    rw [hi] at h
    exact hbase h
  | some i =>
    rw [hi] at h
    rcases List.mem_append.1 h with h | h
    · exact hbase h
    · rcases List.mem_cons.1 h with rfl | h
      · decide
      · exact hnumeral i h

/-- A period is written with a digit at its start. -/
theorem exists_toText_eq_cons (s : PeriodNumerals) :
    ∃ c cs, s.toText = c :: cs ∧ isAsciiDigit c = true := by
  have hnumeral : ∀ (n : Numeral) (t : Text), ∃ c cs, n.text ++ t = c :: cs ∧
      isAsciiDigit c = true := by
    intro n t
    obtain ⟨c, cs, hn, hc⟩ := n.exists_text_eq_cons
    exact ⟨c, cs ++ t, by rw [hn, List.cons_append], hc⟩
  unfold toText spelled spelledBase
  cases s.moves with
  | none =>
    cases s.increment with
    | none => exact s.base.exists_text_eq_cons
    | some i => exact hnumeral s.base _
  | some m =>
    cases s.increment with
    | none => exact hnumeral m _
    | some i =>
      simp only [List.append_assoc]
      exact hnumeral m _

/-- The numerals of a period are parts of its text. -/
theorem infix_toText {s : PeriodNumerals} {n : Numeral} (h : n ∈ s.toList) :
    n.text <:+: s.toText := by
  obtain ⟨moves, base, increment⟩ := s
  simp only [toList, List.mem_append, List.mem_cons, Option.mem_toList] at h
  unfold toText spelled spelledBase
  rcases h with rfl | rfl | rfl
  · cases increment with
    | none => exact (List.prefix_append _ _).isInfix
    | some i => exact ((List.prefix_append _ _).trans (List.prefix_append _ _)).isInfix
  · have hbase : n.text <:+ (PeriodNumerals.mk moves n increment).spelledBase Numeral.text := by
      cases moves with
      | none => exact List.suffix_refl _
      | some m => exact (List.suffix_cons '/' _).trans (List.suffix_append _ _)
    cases increment with
    | none => exact hbase.isInfix
    | some i => exact hbase.isInfix.trans (List.prefix_append _ _).isInfix
  · exact ((List.suffix_cons '+' _).trans (List.suffix_append _ _)).isInfix

theorem areCounts_iff {s : PeriodNumerals} (h : ¬HasLongRun s.toText) :
    s.AreCounts ↔ ∀ n ∈ s.toList, n.value ≤ maxCount := by
  constructor
  · exact fun hs n hn => (hs n hn).inRange
  · intro hs n hn
    refine ⟨Nat.le_of_not_lt fun hlong => h ?_, hs n hn⟩
    have hrun : HasLongRun n.text := Text.IsOversized.hasLongRun ⟨n.text_isNumeral, hlong⟩
    exact hrun.mono (infix_toText hn)

end PeriodNumerals

theorem Period.isPeriodChar_of_mem {p : Period} {c : Char} (h : c ∈ p.toText) :
    PeriodNumerals.isPeriodChar c = true := by
  rw [← PeriodNumerals.toText_ofPeriod] at h
  exact PeriodNumerals.isPeriodChar_of_mem h

theorem Period.colon_not_mem_toText (p : Period) : ':' ∉ p.toText := by
  intro h
  exact absurd (p.isPeriodChar_of_mem h) (by decide)

namespace TimeControl

theorem periodsText_singleton (p : Period) : periodsText [p] = p.toText := join_singleton

theorem normalized?_single (p : Period) (inferred : Bool) :
    (TimeControl.periods p [] inferred).normalized? = some p.toText :=
  congrArg some (periodsText_singleton p)

theorem splitOn_periodsText {ps : List Period} (hne : ps ≠ []) :
    (periodsText ps).splitOn ':' = ps.map Period.toText := by
  refine List.splitOn_intercalate ':' ?_ (by simpa using hne)
  intro t ht
  obtain ⟨p, _, rfl⟩ := List.mem_map.1 ht
  exact p.colon_not_mem_toText

theorem isPlain_of_mem_periodsText {ps : List Period} {c : Char} (h : c ∈ periodsText ps) :
    isPlain c = true := by
  cases hc : isPlain c with
  | true => rfl
  | false =>
    refine absurd h (not_mem_join ?_ ?_)
    · intro hcolon
      rw [List.mem_singleton.1 hcolon] at hc
      exact absurd hc (by decide)
    · intro t ht hmem
      obtain ⟨p, _, rfl⟩ := List.mem_map.1 ht
      have hperiod := p.isPeriodChar_of_mem hmem
      simp only [PeriodNumerals.isPeriodChar, Bool.or_eq_true, beq_iff_eq] at hperiod
      rcases hperiod with (hdigit | rfl) | rfl
      · rw [isPlain_of_isAsciiDigit hdigit] at hc
        exact Bool.noConfusion hc
      · exact absurd hc (by decide)
      · exact absurd hc (by decide)

/-- Periods are written with a digit at the start. -/
theorem exists_periodsText_eq_cons {ps : List Period} (hne : ps ≠ []) :
    ∃ c cs, periodsText ps = c :: cs ∧ isAsciiDigit c = true := by
  obtain ⟨p, ps, rfl⟩ := List.exists_cons_of_ne_nil hne
  obtain ⟨c, cs, hp, hc⟩ := (PeriodNumerals.ofPeriod p).exists_toText_eq_cons
  rw [PeriodNumerals.toText_ofPeriod] at hp
  unfold periodsText
  by_cases hps : ps = []
  · subst hps
    exact ⟨c, cs, by simpa using hp, hc⟩
  · rw [List.map_cons, join_cons (by simpa using hps), hp]
    exact ⟨c, _, List.cons_append, hc⟩

/-! ## Reading the standard form -/

/-- A text that starts with none of the signs is read as periods. -/
theorem readStandard_of_head {c : Char} (hc : c ∉ ['?', '-', '*']) (t : Text) :
    readStandard (c :: t) = (do
      match ← readStages (c :: t) with
      | some control => return some control
      | none => readSingle (c :: t)) := by
  simp only [List.mem_cons, List.not_mem_nil, or_false, not_or] at hc
  have hsandclock : readSandclock (c :: t) = .ok none := by
    unfold readSandclock
    split
    · rename_i heq
      exact absurd (List.cons.inj heq).1 hc.2.2
    · rfl
  have hunknown : (c :: t == ['?']) = false := by simp [hc.1]
  have hunlimited : (c :: t == ['-']) = false := by simp [hc.2.1]
  rw [readStandard, hunknown, hunlimited, hsandclock]
  rfl

theorem not_mem_signs_of_isAsciiDigit {c : Char} (hc : isAsciiDigit c = true) :
    c ∉ ['?', '-', '*'] := by
  simp only [List.mem_cons, List.not_mem_nil, or_false, not_or]
  exact ⟨digit_ne hc (by decide), digit_ne hc (by decide), digit_ne hc (by decide)⟩

/-- Without a colon there is a single period. -/
theorem readStandard_of_single {c : Char} (hc : c ∉ ['?', '-', '*']) {t : Text}
    (hcolon : ':' ∉ c :: t) : readStandard (c :: t) = readSingle (c :: t) := by
  have hstages : readStages (c :: t) = .ok none := by
    unfold readStages
    rw [List.splitOn_eq_singleton hcolon]
    rfl
  rw [readStandard_of_head hc, hstages]
  rfl

/-- What stands before a plus sign has to be a base. -/
theorem readPeriod_of_readBase {base rest : Text} (hplus : '+' ∉ base)
    (hbase : readBase base = .ok none) : readPeriod (base ++ '+' :: rest) = .ok none := by
  unfold readPeriod
  rw [List.splitOn_append_cons_self_of_not_mem hplus]
  split
  · rename_i heq
    exact absurd (List.cons.inj heq).2 (by simp)
  · rename_i heq
    rw [← (List.cons.inj heq).1, hbase]
    rfl
  · rfl

/-- What stands before a slash has to be a number of moves. -/
theorem readBase_of_moves {moves base : Text} (hslash : '/' ∉ moves)
    (hmoves : readCount moves = .ok none) : readBase (moves ++ '/' :: base) = .ok none := by
  unfold readBase
  rw [List.splitOn_append_cons_self_of_not_mem hslash]
  split
  · rename_i heq
    exact absurd (List.cons.inj heq).2 (by simp)
  · rename_i heq
    rw [← (List.cons.inj heq).1, hmoves]
    rfl
  · rfl

theorem readBase_of_mem {t : Text} {c : Char} (hslash : '/' ∉ t) (hc : c ∈ t)
    (h : isAsciiDigit c = false) : readBase t = .ok none := by
  unfold readBase
  rw [List.splitOn_eq_singleton hslash]
  simp only [readCount_of_mem hc h]
  rfl

theorem readStandard_of_readBase {c : Char} {t base rest : Text} (ht : c :: t = base ++ '+' :: rest)
    (hc : c ∉ ['?', '-', '*']) (hcolon : ':' ∉ c :: t) (hplus : '+' ∉ base)
    (hbase : readBase base = .ok none) : readStandard (c :: t) = .ok none := by
  rw [readStandard_of_single hc hcolon, readSingle, ht, readPeriod_of_readBase hplus hbase]
  rfl

theorem readPeriods_eq_some_iff {ts : List Text} {ps : List Period} :
    readPeriods ts = .ok (some ps) ↔
      List.Forall₂ (fun t p => readPeriod t = .ok (some p)) ts ps :=
  mapM_bind_eq_some_iff

theorem readPeriods_map_toText {ps : List Period} (h : ∀ p ∈ ps, p.InRange) :
    readPeriods (ps.map Period.toText) = .ok (some ps) := by
  rw [readPeriods_eq_some_iff, List.forall₂_map_left_iff, List.forall₂_same]
  exact fun p hp => readPeriod_period (h p hp)

/-- **Periods are read back**, if they are not a single one that is taken for minutes. -/
theorem readStandard_periodsText {first : Period} {later : List Period}
    (h : ∀ p ∈ first :: later, p.InRange)
    (hminutes : later = [] → looksLikeMinutes first = false) :
    readStandard (periodsText (first :: later)) = .ok (some (.periods first later false)) := by
  have hparts := splitOn_periodsText (List.cons_ne_nil first later)
  obtain ⟨c, cs, htext, hc⟩ := exists_periodsText_eq_cons (List.cons_ne_nil first later)
  have hstages : readStages (periodsText (first :: later)) =
      if later = [] then .ok none else .ok (some (.periods first later false)) := by
    unfold readStages
    simp only [hparts, readPeriods_map_toText h, List.length_map, List.length_cons]
    cases later with
    | nil => rfl
    | cons second later =>
      rw [if_pos (by simp), if_neg (List.cons_ne_nil _ _)]
      rfl
  rw [htext, readStandard_of_head (not_mem_signs_of_isAsciiDigit hc), ← htext, hstages]
  by_cases hlater : later = []
  · subst hlater
    have hread := readPeriod_period (h first List.mem_cons_self)
    rw [if_pos rfl, periodsText_singleton]
    show readSingle first.toText = _
    rw [readSingle, hread]
    show Except.ok (if looksLikeMinutes first = true then none else _) = _
    rw [hminutes rfl]
    rfl
  · rw [if_neg hlater]
    rfl

/-- A period that is taken for minutes has no moves and a small base. -/
theorem base_of_looksLikeMinutes {p : Period} (h : looksLikeMinutes p = true) :
    p.moves = none ∧ (p.base < 60 ∨ p.base = 75 ∨ p.base = 90) := by
  obtain ⟨base, moves, increment⟩ := p
  cases moves with
  | some m => simp [looksLikeMinutes] at h
  | none =>
    refine ⟨rfl, ?_⟩
    cases increment with
    | none => exact Or.inl (by simpa [looksLikeMinutes] using h)
    | some k =>
      simp only [looksLikeMinutes, Bool.or_eq_true, Bool.and_eq_true, decide_eq_true_eq,
        beq_iff_eq] at h
      exact h.imp And.left And.left

theorem inRange_of_looksLikeMinutes {p : Period} (h : looksLikeMinutes p = true) : p.InRange := by
  obtain ⟨hmoves, hbase⟩ := base_of_looksLikeMinutes h
  refine ⟨?_, by simp [hmoves], fun k hk => ?_⟩
  · simp only [maxCount]
    omega
  · obtain ⟨base, moves, increment⟩ := p
    obtain rfl : moves = none := hmoves
    obtain rfl : increment = some k := hk
    have hk : k ≤ 60 := by
      simp only [looksLikeMinutes, Bool.or_eq_true, Bool.and_eq_true, decide_eq_true_eq,
        beq_iff_eq] at h
      omega
    exact hk.trans (by decide)

/-- Two parts at least are two periods at least. -/
theorem exists_of_readStages {t : Text} {control : TimeControl}
    (h : readStages t = .ok (some control)) :
    ∃ first second later, control = .periods first (second :: later) false := by
  unfold readStages at h
  dsimp only at h
  split at h
  · rename_i hparts
    obtain ⟨read, hread, h⟩ := bind_eq_ok.1 h
    obtain ⟨ps, rfl, hps⟩ := Option.bind_eq_some_iff.1 (Except.ok.inj h)
    have hlength := (readPeriods_eq_some_iff.1 hread).length_eq
    match ps with
    | [] => simp [ofPeriods?] at hps
    | [_] => simp [hlength] at hparts
    | first :: second :: later => exact ⟨first, second, later, (Option.some.inj hps).symm⟩
  · simp at h

/-- **A single period** that is read in the standard form is not taken for minutes. -/
theorem not_looksLikeMinutes_of_readStandard {t : Text} {p : Period} {inferred : Bool}
    (h : readStandard t = .ok (some (.periods p [] inferred))) : looksLikeMinutes p = false := by
  unfold readStandard at h
  split at h
  · simp at h
  · split at h
    · simp at h
    · obtain ⟨seconds, _, h⟩ := bind_eq_ok.1 h
      cases seconds with
      | some seconds => simp [pure, Except.pure] at h
      | none =>
        obtain ⟨stages, hstages, h⟩ := bind_eq_ok.1 h
        cases stages with
        | some stages =>
          obtain ⟨first, second, later, hperiods⟩ := exists_of_readStages hstages
          rw [hperiods] at h
          simp [pure, Except.pure] at h
        | none =>
          obtain ⟨read, _, h⟩ := bind_eq_ok.1 h
          cases read with
          | none => simp [pure, Except.pure] at h
          | some q =>
            dsimp only at h
            split at h
            · simp [pure, Except.pure] at h
            · rename_i hlarge
              have hcontrol := Option.some.inj (Except.ok.inj h)
              rwa [Bool.not_eq_true, (TimeControl.periods.inj hcontrol).1] at hlarge

/-- The four kinds of text of the standard form, each with the control that it stands for. -/
inductive Standard : Text → TimeControl → Prop
  | unknown : Standard ['?'] (.unknown true)
  | unlimited : Standard ['-'] .unlimited
  | sandclock {n : Numeral} (hn : IsCount n) : Standard ('*' :: n.text) (.sandclock n.value)
  | periods {first : PeriodNumerals} {later : List PeriodNumerals} (hfirst : first.AreCounts)
      (hlater : ∀ s ∈ later, s.AreCounts) :
      Standard (join [':'] ((first :: later).map PeriodNumerals.toText))
        (.periods first.period (later.map PeriodNumerals.period) false)

theorem exists_of_readPeriods {ts : List Text} {ps : List Period}
    (h : readPeriods ts = .ok (some ps)) :
    ∃ stages : List PeriodNumerals, (∀ s ∈ stages, s.AreCounts) ∧
      ts = stages.map PeriodNumerals.toText ∧ ps = stages.map PeriodNumerals.period := by
  have hall := readPeriods_eq_some_iff.1 h
  clear h
  induction hall with
  | nil => exact ⟨[], by simp, rfl, rfl⟩
  | cons hfirst _ ih =>
    obtain ⟨stages, hstages, rfl, rfl⟩ := ih
    obtain ⟨s, hs, rfl, rfl⟩ := readPeriod_eq_some_iff.1 hfirst
    exact ⟨s :: stages, List.forall_mem_cons.2 ⟨hs, hstages⟩, rfl, rfl⟩

theorem standard_of_readSandclock {t : Text} {seconds : Nat}
    (h : readSandclock t = .ok (some seconds)) : Standard t (.sandclock seconds) := by
  unfold readSandclock at h
  split at h
  · obtain ⟨n, rfl, hn, rfl⟩ := readCount_eq_some_iff.1 h
    exact .sandclock hn
  · simp at h

theorem standard_of_readStages {t : Text} {control : TimeControl}
    (h : readStages t = .ok (some control)) : Standard t control := by
  have hjoin : join [':'] (t.splitOn ':') = t := List.intercalate_splitOn ':'
  unfold readStages at h
  dsimp only at h
  split at h
  · obtain ⟨read, hread, h⟩ := bind_eq_ok.1 h
    obtain ⟨ps, rfl, hps⟩ := Option.bind_eq_some_iff.1 (Except.ok.inj h)
    obtain ⟨stages, hstages, hparts, rfl⟩ := exists_of_readPeriods hread
    rw [hparts] at hjoin
    cases stages with
    | nil => simp [ofPeriods?] at hps
    | cons first later =>
      obtain ⟨hfirst, hlater⟩ := List.forall_mem_cons.1 hstages
      rw [← hjoin, ← Option.some.inj hps]
      exact .periods hfirst hlater
  · simp at h

theorem standard_of_readSingle {t : Text} {control : TimeControl}
    (h : readSingle t = .ok (some control)) : Standard t control := by
  obtain ⟨read, hread, h⟩ := bind_eq_ok.1 h
  cases read with
  | none => simp [pure, Except.pure] at h
  | some p =>
    dsimp only at h
    obtain ⟨s, hs, rfl, rfl⟩ := readPeriod_eq_some_iff.1 hread
    split at h
    · simp [pure, Except.pure] at h
    · have hsingle := Standard.periods hs (List.forall_mem_nil PeriodNumerals.AreCounts)
      rw [List.map_singleton, join_singleton] at hsingle
      rw [← Option.some.inj (Except.ok.inj h)]
      exact hsingle

/-- **What is read in the standard form** has one of its four kinds of text. -/
theorem standard_of_readStandard {t : Text} {control : TimeControl}
    (h : readStandard t = .ok (some control)) : Standard t control := by
  unfold readStandard at h
  split at h
  · rename_i ht
    rw [← Option.some.inj (Except.ok.inj h), beq_iff_eq.1 ht]
    exact .unknown
  · split at h
    · rename_i ht
      rw [← Option.some.inj (Except.ok.inj h), beq_iff_eq.1 ht]
      exact .unlimited
    · obtain ⟨seconds, hseconds, h⟩ := bind_eq_ok.1 h
      cases seconds with
      | some seconds =>
        rw [← Option.some.inj (Except.ok.inj h)]
        exact standard_of_readSandclock hseconds
      | none =>
        obtain ⟨stages, hstages, h⟩ := bind_eq_ok.1 h
        cases stages with
        | some stages =>
          rw [← Option.some.inj (Except.ok.inj h)]
          exact standard_of_readStages hstages
        | none => exact standard_of_readSingle h

/-! ## The whole reading -/

/-- What is made of a value after tidying. -/
def readingOf (raw : Text) (remarks : List Remark) :
    Option (TimeControl × List Remark) → TimeControlReading
  | some (control, more) => ⟨raw, control, remarks ++ more⟩
  | none => ⟨raw, .unknown false, remarks⟩

/-- A value is read by what it is after tidying. -/
theorem readTimeControl_of_tidy {raw : Text} {tidied : Tidied} (hblank : isBlankText raw = false)
    (htidy : tidy raw = .ok tidied) (hquotes : .ambiguousQuotes ∉ tidied.remarks) :
    readTimeControl raw = do
      return some (readingOf raw tidied.remarks (← readQualified tidied.text)) := by
  have hcontains : tidied.remarks.contains .ambiguousQuotes = false := by simpa using hquotes
  unfold readTimeControl
  rw [hblank, htidy, if_neg Bool.false_ne_true]
  show (if tidied.remarks.contains .ambiguousQuotes = true then _ else _) = _
  rw [hcontains, if_neg Bool.false_ne_true]
  refine bind_congr fun found => ?_
  cases found <;> rfl

/-- What tidying remarks does not matter for the standard form of a value. -/
theorem normalizeTimeControl_of_tidy {raw : Text} {tidied : Tidied}
    (hblank : isBlankText raw = false) (htidy : tidy raw = .ok tidied)
    (hquotes : .ambiguousQuotes ∉ tidied.remarks) :
    normalizeTimeControl raw = do
      return (← readQualified tidied.text).bind fun found => found.1.normalized? := by
  rw [normalizeTimeControl, readTimeControl_of_tidy hblank htidy hquotes, bind_assoc]
  refine bind_congr fun found => ?_
  cases found <;> rfl

theorem readQualified_of_standard {t : Text} {control : TimeControl}
    (h : readStandard t = .ok (some control)) : readQualified t = .ok (some (control, [])) := by
  unfold readQualified readTidied
  rw [h]
  rfl

end TimeControl

/-- A value was read in the standard form as a list of periods. -/
structure TimeControlReading.IsOfPeriods (r : TimeControlReading) (ps : List Period) : Prop where
  mode : r.control.mode = .normal
  periods : r.control.periodList = ps
  normalized : r.control.normalized? = some (periodsText ps)
  isInferred : r.control.isInferred = false
  isOversized : r.control.isOversized = false
  remarks : r.remarks = []

/-- **The standard form is read as it is written.** Periods with numbers in range are read back from
their text without a remark, if they are not a single one that is taken for minutes. And a text is
read as a period exactly if it has the form `moves/base+increment` with numerals in range; written
again it is the same text without the zeros in front of the numerals. -/
theorem standard_form_roundTrip :
    (∀ ps : List Period, ps ≠ [] → (∀ p ∈ ps, p.InRange) →
      (∀ p, ps = [p] → looksLikeMinutes p = false) →
      ∃ r, readTimeControl (periodsText ps) = .ok (some r) ∧ r.IsOfPeriods ps) ∧
    (∀ t : Text, ¬HasLongRun t → ∃ read, readPeriod t = .ok read ∧
      ∀ p, read = some p ↔ ∃ s : PeriodNumerals, t = s.toText ∧
        (∀ n ∈ s.toList, n.value ≤ maxCount) ∧ p = s.period ∧
        p.toText = s.spelled fun n => withoutLeadingZeros n.text) := by
  constructor
  · intro ps hne hrange hminutes
    obtain ⟨first, later, rfl⟩ := List.exists_cons_of_ne_nil hne
    obtain ⟨c, cs, htext, hc⟩ := exists_periodsText_eq_cons hne
    have hblank : isBlankText (periodsText (first :: later)) = false := by
      rw [htext]
      simp [isBlankText, isBlank_of_isAsciiDigit hc]
    have htidy : tidy (periodsText (first :: later)) = .ok ⟨periodsText (first :: later), []⟩ :=
      tidy_of_plain (by simp [htext]) fun _ => isPlain_of_mem_periodsText
    have hstandard := readStandard_periodsText hrange fun hlater => hminutes first (by rw [hlater])
    refine ⟨⟨periodsText (first :: later), .periods first later false, []⟩, ?_,
      rfl, rfl, rfl, rfl, rfl, rfl⟩
    rw [readTimeControl_of_tidy hblank htidy (by simp), readQualified_of_standard hstandard]
    rfl
  · intro t hlong
    obtain ⟨read, hread⟩ := answers_readPeriod hlong
    refine ⟨read, hread, fun p => ⟨?_, ?_⟩⟩
    · rintro rfl
      obtain ⟨s, hs, rfl, rfl⟩ := readPeriod_eq_some_iff.1 hread
      exact ⟨s, rfl, (PeriodNumerals.areCounts_iff hlong).1 hs, rfl, s.toText_period⟩
    · rintro ⟨s, rfl, hs, rfl, _⟩
      rw [readPeriod_toText ((PeriodNumerals.areCounts_iff hlong).2 hs)] at hread
      exact (Except.ok.inj hread).symm

/-- A classical control of two periods, and a period with zeros in front of its numerals. -/
theorem standard_form_roundTrip_classical :
    (∃ r, readTimeControl "40/5400+30:1800+30".toList = .ok (some r) ∧
      r.IsOfPeriods [⟨5400, some 40, some 30⟩, ⟨1800, none, some 30⟩]) ∧
    (∃ p, readPeriod "040/05400".toList = .ok (some p) ∧ p.toText = "40/5400".toList) := by
  have hperiods : ∀ p ∈ [⟨5400, some 40, some 30⟩, ⟨1800, none, some 30⟩], Period.InRange p := by
    intro p hp
    simp only [List.mem_cons, List.not_mem_nil, or_false] at hp
    rcases hp with rfl | rfl <;> exact ⟨by decide, by decide, by decide⟩
  have hlong : ¬HasLongRun "040/05400".toList := not_hasLongRun_of_length_le (by decide)
  refine ⟨standard_form_roundTrip.1 [⟨5400, some 40, some 30⟩, ⟨1800, none, some 30⟩] (by simp)
    hperiods (by simp), ?_⟩
  obtain ⟨read, hread, hiff⟩ := standard_form_roundTrip.2 "040/05400".toList hlong
  let s : PeriodNumerals := ⟨some ⟨"040".toList, by decide⟩, ⟨"05400".toList, by decide⟩, none⟩
  have hcounts : ∀ n ∈ s.toList, n.value ≤ maxCount := by decide
  have hp := (hiff s.period).2 ⟨s, by decide, hcounts, rfl, s.toText_period⟩
  exact ⟨s.period, hp ▸ hread, by decide⟩

end Scoresheet
