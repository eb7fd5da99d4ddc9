import Scoresheet.Proofs.TimeControl.Guesses
import Scoresheet.Proofs.TimeControl.StandardForm

/-!
# Readings of time controls are well formed

What a tidied value is found to be is either read in the standard form or guessed from a wording
that the guess fits (`FoundIn`); a last word that was dropped is remarked upon. So every reading has
exactly one of five shapes, and its remarks tell how it was found: one interpretation if and only if
it is guessed, and an overflow if and only if its control is oversized.
-/

namespace Scoresheet

open Text TimeControl

/-! ## What a tidied value is found to be -/

namespace TimeControl

/-- What a value is found to be, and on what grounds. -/
inductive FoundIn (t : Text) : TimeControl × List Remark → Prop
  | standard {control : TimeControl} (h : Standard t control) : FoundIn t (control, [])
  | guess {g : Guess} (h : Guess.Fits g t) : FoundIn t (g.control, g.remarks)

/-- The same for a value whose last word may be dropped. -/
inductive FoundQualified (t : Text) : TimeControl × List Remark → Prop
  | whole {found : TimeControl × List Remark} (h : FoundIn t found) : FoundQualified t found
  | core {core : Text} {control : TimeControl} {remarks : List Remark}
      (hcore : dropQualifier? t = some core) (h : FoundIn core (control, remarks)) :
      FoundQualified t (control, .ignoredQualifier :: remarks)

variable {t : Text} {found : TimeControl × List Remark}

theorem soundFor_guesses (t : Text) : SoundFor t (firstGuess t [infer, inferFreeText]) := by
  refine soundFor_firstGuess ?_
  simp only [List.forall_mem_cons]
  exact ⟨soundFor_infer t, soundFor_inferFreeText t, by simp⟩

theorem answers_readTidied (h : ¬HasLongRun t) : Answers (readTidied t) := by
  refine (answers_readStandard h).bind fun control _ => ?_
  cases control with
  | some control => exact answers_ok _
  | none => exact ((soundFor_guesses t).answers h).bind fun _ _ => answers_ok _

theorem foundIn_of_readTidied (h : readTidied t = .ok (some found)) : FoundIn t found := by
  obtain ⟨control, hcontrol, h⟩ := bind_eq_ok.1 h
  cases control with
  | some control =>
    rw [← Option.some.inj (Except.ok.inj h)]
    exact .standard (standard_of_readStandard hcontrol)
  | none =>
    obtain ⟨guess, hguess, h⟩ := bind_eq_ok.1 h
    obtain ⟨g, rfl, rfl⟩ := Option.map_eq_some_iff.1 (Except.ok.inj h)
    exact .guess ((soundFor_guesses t).fits g hguess)

theorem infix_of_dropQualifier? {core : Text} (h : dropQualifier? t = some core) : core <:+: t := by
  unfold dropQualifier? at h
  dsimp only at h
  split at h
  · rw [← Option.some.inj h]
    have hbefore : (t.reverse.dropWhile isLetter).reverse <+: t := by
      rw [← List.reverse_suffix, List.reverse_reverse]
      exact List.dropWhile_suffix _
    exact ((isPrefix_trimRight _).trans hbefore).isInfix
  · simp at h

theorem answers_readQualified (h : ¬HasLongRun t) : Answers (readQualified t) := by
  refine (answers_readTidied h).bind fun whole _ => ?_
  cases whole with
  | some whole => exact answers_ok _
  | none =>
    cases hcore : dropQualifier? t with
    | none => exact answers_ok none
    | some core =>
      have hshort : ¬HasLongRun core := fun hlong => h (hlong.mono (infix_of_dropQualifier? hcore))
      exact (answers_readTidied hshort).bind fun _ _ => answers_ok _

/-- **What a value is found to be** fits the value, or the value without its last word. -/
theorem foundQualified_of_readQualified (h : readQualified t = .ok (some found)) :
    FoundQualified t found := by
  obtain ⟨whole, hwhole, h⟩ := bind_eq_ok.1 h
  cases whole with
  | some whole =>
    rw [← Option.some.inj (Except.ok.inj h)]
    exact .whole (foundIn_of_readTidied hwhole)
  | none =>
    cases hcore : dropQualifier? t with
    | none => simp [hcore, pure, Except.pure] at h
    | some core =>
      rw [hcore] at h
      obtain ⟨read, hread, h⟩ := bind_eq_ok.1 h
      obtain ⟨⟨control, remarks⟩, rfl, rfl⟩ := Option.map_eq_some_iff.1 (Except.ok.inj h)
      exact .core hcore (foundIn_of_readTidied hread)

end TimeControl

/-! ## The shapes of readings -/

namespace TimeControlReading

/-- The remarks as they are written. -/
def warnings (r : TimeControlReading) : List Text := r.remarks.map Remark.name

/-- The remark on an overflow as it is written. -/
def overflowWarning : Text := "inference_arithmetic_overflow".toList

/-- A remark that is written tells how a wording was understood. -/
def isInterpretationCode (warning : Text) : Bool :=
  "interpreted_".toList.isPrefixOf warning || "matched_free_text_".toList.isPrefixOf warning

/-- The shapes of a reading. -/
inductive Shape
  | unknown
  | unlimited
  | sandclock
  | periods
  | oversized
  deriving DecidableEq, Repr

/-- What a reading of some shape consists of. -/
def HasShape (r : TimeControlReading) : Shape → Prop
  | .unknown => r.control.mode = .unknown ∧ r.control.periodList = [] ∧
      (r.control.normalized? = none ∨ r.control.normalized? = some ['?'])
  | .unlimited => r.control.mode = .unlimited ∧ r.control.periodList = [] ∧
      r.control.normalized? = some ['-']
  | .sandclock => r.control.mode = .sandclock ∧ ∃ seconds ≤ maxCount,
      r.control.periodList = [⟨seconds, none, none⟩] ∧
      r.control.normalized? = some ('*' :: decimal seconds)
  | .periods => r.control.mode = .normal ∧ r.control.isOversized = false ∧
      r.control.periodList ≠ [] ∧ (∀ p ∈ r.control.periodList, p.InRange) ∧
      ∃ text, r.control.normalized? = some text ∧
        (text.splitOn ':').map readPeriod = r.control.periodList.map fun p => .ok (some p)
  | .oversized => r.control.mode = .normal ∧ r.control.isOversized = true ∧
      r.control.isInferred = true ∧ r.control.periodList = [] ∧ r.control.normalized? = none ∧
      r.warnings.getLast? = some overflowWarning

/-- A reading has one shape, and its remarks agree with its control. -/
structure IsWellFormed (r : TimeControlReading) : Prop where
  shape : ∃! shape, r.HasShape shape
  category : r.control.category?.isSome = true ↔ r.HasShape .periods
  overflow : overflowWarning ∈ r.warnings ↔ r.control.isOversized = true
  interpretations : r.warnings.countP isInterpretationCode = if r.control.isInferred then 1 else 0

/-! ## Every reading has one shape -/

/-- The only shape that a reading can have. -/
def shape (r : TimeControlReading) : Shape :=
  match r.control.mode with
  | .unknown => .unknown
  | .unlimited => .unlimited
  | .sandclock => .sandclock
  | .normal => if r.control.isOversized then .oversized else .periods

variable {r : TimeControlReading}

theorem eq_shape_of_hasShape {s : Shape} (h : r.HasShape s) : s = r.shape := by
  unfold shape
  cases s with
  | unknown => rw [h.1]
  | unlimited => rw [h.1]
  | sandclock => rw [h.1]
  | periods => simp only [h.1, h.2.1, Bool.false_eq_true, if_false]
  | oversized => simp only [h.1, h.2.1, if_true]

theorem existsUnique_shape (h : ∃ s, r.HasShape s) : ∃! s, r.HasShape s := by
  obtain ⟨s, hs⟩ := h
  exact ⟨s, hs, fun s' hs' => (eq_shape_of_hasShape hs').trans (eq_shape_of_hasShape hs).symm⟩

theorem isSome_category?_iff (h : ∃ s, r.HasShape s) :
    r.control.category?.isSome = true ↔ r.HasShape .periods := by
  obtain ⟨s, hs⟩ := h
  have hshape := eq_shape_of_hasShape hs
  constructor
  · intro hcategory
    have hperiods : r.shape = .periods := by
      unfold shape
      cases hcontrol : r.control with
      | periods first later inferred => rfl
      | unknown | unlimited | sandclock | oversized => simp [hcontrol, category?] at hcategory
    rwa [hshape, hperiods] at hs
  · rintro ⟨hmode, hoversized, _⟩
    cases hcontrol : r.control with
    | periods first later inferred => rfl
    | unknown => simp [hcontrol, mode] at hmode
    | unlimited => simp [hcontrol, mode] at hmode
    | sandclock => simp [hcontrol, mode] at hmode
    | oversized => simp [hcontrol, isOversized] at hoversized

/-- Periods in range are read back from the standard form. -/
theorem hasShape_periods {first : Period} {later : List Period} {inferred : Bool}
    (h : ∀ p ∈ first :: later, p.InRange) (raw : Text) (remarks : List Remark) :
    HasShape ⟨raw, .periods first later inferred, remarks⟩ .periods := by
  refine ⟨rfl, rfl, List.cons_ne_nil _ _, h, _, rfl, ?_⟩
  rw [splitOn_periodsText (List.cons_ne_nil _ _), List.map_map]
  exact List.map_congr_left fun p hp => readPeriod_period (h p hp)

/-! ## Remarks -/

/-- A remark that neither interprets the value nor tells of an overflow. -/
def IsQuiet (remark : Remark) : Prop :=
  remark.name ≠ overflowWarning ∧ isInterpretationCode remark.name = false

theorem isQuiet_of_isOnTidying {remark : Remark} (h : Remark.IsOnTidying remark) :
    IsQuiet remark := by
  simp only [Remark.IsOnTidying, List.mem_cons, List.not_mem_nil, or_false] at h
  rcases h with rfl | rfl | rfl | rfl | rfl | rfl <;> exact ⟨by decide, by decide⟩

theorem isInterpretationCode_name (how : Interpretation) :
    isInterpretationCode how.name = true ∧ how.name ≠ overflowWarning := by
  cases how <;> exact ⟨by decide, by decide⟩

section Quiet

variable {quiet : List Remark} (h : ∀ remark ∈ quiet, IsQuiet remark)
include h

theorem overflowWarning_not_mem_of_quiet : overflowWarning ∉ quiet.map Remark.name := by
  intro hmem
  obtain ⟨remark, hremark, hname⟩ := List.mem_map.1 hmem
  exact (h remark hremark).1 hname

theorem countP_of_quiet : (quiet.map Remark.name).countP isInterpretationCode = 0 := by
  rw [List.countP_eq_zero]
  intro name hname
  obtain ⟨remark, hremark, rfl⟩ := List.mem_map.1 hname
  simp [(h remark hremark).2]

/-- The remarks on tidying do not count: what is made of the tidied value decides. -/
theorem isWellFormed_append {raw : Text} {control : TimeControl} {made : List Remark}
    (hshape : ∃ s, HasShape ⟨raw, control, quiet ++ made⟩ s)
    (hoverflow : overflowWarning ∈ made.map Remark.name ↔ control.isOversized = true)
    (hcount : (made.map Remark.name).countP isInterpretationCode
      = if control.isInferred then 1 else 0) :
    IsWellFormed ⟨raw, control, quiet ++ made⟩ where
  shape := existsUnique_shape hshape
  category := isSome_category?_iff hshape
  overflow := by
    rw [warnings, List.map_append, List.mem_append, ← hoverflow]
    exact or_iff_right (overflowWarning_not_mem_of_quiet h)
  interpretations := by
    rw [warnings, List.map_append, List.countP_append, countP_of_quiet h, Nat.zero_add, hcount]

/-- Where nothing is guessed no remark is made after tidying. -/
theorem isWellFormed_of_quiet {raw : Text} {control : TimeControl}
    (hshape : ∃ s, HasShape ⟨raw, control, quiet⟩ s) (hoversized : control.isOversized = false)
    (hinferred : control.isInferred = false) : IsWellFormed ⟨raw, control, quiet⟩ := by
  rw [← List.append_nil quiet] at hshape ⊢
  exact isWellFormed_append h hshape (by simp [hoversized]) (by simp [hinferred])

theorem isWellFormed_of_standard {t : Text} {control : TimeControl} (hcontrol : Standard t control)
    (raw : Text) : IsWellFormed ⟨raw, control, quiet⟩ := by
  cases hcontrol with
  | unknown => exact isWellFormed_of_quiet h ⟨.unknown, rfl, rfl, Or.inr rfl⟩ rfl rfl
  | unlimited => exact isWellFormed_of_quiet h ⟨.unlimited, rfl, rfl, rfl⟩ rfl rfl
  | sandclock hn =>
    exact isWellFormed_of_quiet h ⟨.sandclock, rfl, _, hn.inRange, rfl, rfl⟩ rfl rfl
  | periods hfirst hlater =>
    have hrange : ∀ p ∈ (_ :: _ : List Period), p.InRange :=
      List.forall_mem_cons.2 ⟨hfirst.inRange, List.forall_mem_map.2 fun s hs => (hlater s hs).inRange⟩
    exact isWellFormed_of_quiet h ⟨.periods, hasShape_periods hrange raw quiet⟩ rfl rfl

theorem isWellFormed_of_guess {g : Guess} (hrange : ∀ p ∈ g.control.periodList, p.InRange)
    (raw : Text) : IsWellFormed ⟨raw, g.control, quiet ++ g.remarks⟩ := by
  obtain ⟨hcode, hname⟩ := isInterpretationCode_name g.how
  have hquiet : isInterpretationCode overflowWarning = false := by decide
  obtain ⟨how, periods⟩ := g
  cases periods with
  | some periods =>
    obtain ⟨first, later⟩ := periods
    have hcount : [how.name].countP isInterpretationCode = 1 := by
      rw [List.countP_cons_of_pos hcode, List.countP_nil]
    refine isWellFormed_append h ⟨.periods, hasShape_periods hrange raw _⟩ ?_ hcount
    exact iff_of_false (fun hmem => hname (List.mem_singleton.1 hmem).symm) Bool.false_ne_true
  | none =>
    have hcount : [how.name, overflowWarning].countP isInterpretationCode = 1 := by
      rw [List.countP_cons_of_pos hcode, List.countP_cons_of_neg (by simp [hquiet]), List.countP_nil]
    have hlast : warnings ⟨raw, .oversized, quiet ++ [.interpreted how, .overflow]⟩
        = (quiet.map Remark.name ++ [how.name]) ++ [overflowWarning] := by
      rw [warnings, List.map_append, List.append_assoc]
      rfl
    refine isWellFormed_append h ⟨.oversized, rfl, rfl, rfl, rfl, rfl, ?_⟩ ?_ hcount
    · show (warnings ⟨raw, .oversized, quiet ++ [.interpreted how, .overflow]⟩).getLast? = _
      rw [hlast, List.getLast?_concat]
    · exact iff_of_true (List.mem_cons_of_mem _ (List.mem_singleton.2 rfl)) rfl

/-- Whatever a value is found to be. -/
theorem isWellFormed_of_foundIn {t : Text} {found : TimeControl × List Remark}
    (hfound : FoundIn t found) (raw : Text) :
    IsWellFormed ⟨raw, found.1, quiet ++ found.2⟩ := by
  cases hfound with
  | standard hcontrol =>
    rw [List.append_nil]
    exact isWellFormed_of_standard h hcontrol raw
  | guess hfits => exact isWellFormed_of_guess h hfits.inRange raw

end Quiet

end TimeControlReading

/-! ## All values -/

/-- What is read of a value that is not blank. -/
theorem readTimeControl_cases {raw : Text} (hlong : ¬HasLongRun raw)
    (hblank : isBlankText raw = false) :
    ∃ tidied, tidy raw = .ok tidied ∧
      (readTimeControl raw = .ok (some ⟨raw, .unknown false, tidied.remarks⟩) ∨
        ∃ found, readQualified tidied.text = .ok (some found) ∧
          readTimeControl raw = .ok (some ⟨raw, found.1, tidied.remarks ++ found.2⟩)) := by
  obtain ⟨tidied, htidy⟩ := answers_tidy hlong
  have hshort : ¬HasLongRun tidied.text := fun h => hlong ((of_tidy htidy).1 h)
  refine ⟨tidied, htidy, ?_⟩
  by_cases hquotes : .ambiguousQuotes ∈ tidied.remarks
  · have hcontains : tidied.remarks.contains .ambiguousQuotes = true := by simpa using hquotes
    left
    unfold readTimeControl
    rw [hblank, htidy, if_neg Bool.false_ne_true]
    refine bind_eq_ok.2 ⟨tidied, rfl, ?_⟩
    dsimp only
    rw [hcontains, if_pos rfl]
    rfl
  · obtain ⟨found, hfound⟩ := answers_readQualified hshort
    have hread := readTimeControl_of_tidy hblank htidy hquotes
    rw [hfound] at hread
    cases found with
    | none => exact Or.inl hread
    | some found => exact Or.inr ⟨found, hfound, hread⟩

/-- Whatever is read of a value that is not blank is well formed. -/
theorem exists_isWellFormed {raw : Text} (hlong : ¬HasLongRun raw)
    (hblank : isBlankText raw = false) :
    ∃ r, readTimeControl raw = .ok (some r) ∧ r.raw = raw ∧ r.IsWellFormed := by
  obtain ⟨tidied, htidy, hread⟩ := readTimeControl_cases hlong hblank
  have hquiet : ∀ remark ∈ tidied.remarks, TimeControlReading.IsQuiet remark :=
    fun remark hremark => TimeControlReading.isQuiet_of_isOnTidying ((of_tidy htidy).2 remark hremark)
  rcases hread with hread | ⟨found, hfound, hread⟩
  · refine ⟨_, hread, rfl, TimeControlReading.isWellFormed_of_quiet hquiet ?_ rfl rfl⟩
    exact ⟨.unknown, rfl, rfl, Or.inl rfl⟩
  · refine ⟨_, hread, rfl, ?_⟩
    cases foundQualified_of_readQualified hfound with
    | whole hfound => exact TimeControlReading.isWellFormed_of_foundIn hquiet hfound raw
    | core _ hcore =>
      have hqualified : ∀ remark ∈ tidied.remarks ++ [.ignoredQualifier],
          TimeControlReading.IsQuiet remark := by
        intro remark hremark
        rcases List.mem_append.1 hremark with hremark | hremark
        · exact hquiet remark hremark
        · rw [List.mem_singleton.1 hremark]
          exact ⟨by decide, by decide⟩
      have hformed := TimeControlReading.isWellFormed_of_foundIn hqualified hcore raw
      rwa [List.append_assoc] at hformed

/-- The numbers of a reading are in range. -/
theorem TimeControlReading.IsWellFormed.inRange {r : TimeControlReading} (h : r.IsWellFormed) :
    ∀ p ∈ r.control.periodList, p.InRange := by
  obtain ⟨shape, hshape, _⟩ := h.shape
  cases shape with
  | unknown => simp [hshape.2.1]
  | unlimited => simp [hshape.2.1]
  | sandclock =>
    obtain ⟨seconds, hseconds, hperiods, _⟩ := hshape.2
    rw [hperiods]
    exact List.forall_mem_singleton.2 ⟨hseconds, by simp, by simp⟩
  | periods => exact hshape.2.2.2.1
  | oversized => simp [hshape.2.2.2.1]

theorem isBlankText_of_readTimeControl {raw : Text} {r : TimeControlReading}
    (h : readTimeControl raw = .ok (some r)) : isBlankText raw = false := by
  rw [← Bool.not_eq_true]
  intro hblank
  rw [readTimeControl, if_pos hblank] at h
  simp at h

theorem inRange_of_readTimeControl {raw : Text} (hlong : ¬HasLongRun raw) {r : TimeControlReading}
    (h : readTimeControl raw = .ok (some r)) : ∀ p ∈ r.control.periodList, p.InRange := by
  obtain ⟨r', hread, _, hformed⟩ := exists_isWellFormed hlong (isBlankText_of_readTimeControl h)
  rw [h] at hread
  obtain rfl : r = r' := Option.some.inj (Except.ok.inj hread)
  exact hformed.inRange

/-- **Readings are well formed.** Whatever value is given, if it has no run of more than 4300
digits, it is read unless it is blank. The reading keeps the value, has exactly one of the five
shapes, and its remarks agree with its control; a speed class is known if and only if there are
periods. -/
theorem readTimeControl_wellFormed (raw : Text) (hlong : ¬HasLongRun raw) :
    ∃ reading category, readTimeControl raw = .ok reading ∧
      timeControlCategory raw = .ok category ∧ (reading = none ↔ isBlankText raw = true) ∧
      (category.isSome = true ↔ ∃ r, reading = some r ∧ r.HasShape .periods) ∧
      ∀ r, reading = some r → r.raw = raw ∧ r.IsWellFormed := by
  cases hblank : isBlankText raw with
  | true =>
    have hread : readTimeControl raw = .ok none := by rw [readTimeControl, hblank, if_pos rfl]
    refine ⟨none, none, hread, ?_, by simp, by simp, by simp⟩
    rw [timeControlCategory, hread]
    rfl
  | false =>
    obtain ⟨r, hread, hraw, hformed⟩ := exists_isWellFormed hlong hblank
    refine ⟨some r, r.control.category?, hread, ?_, by simp, ?_, ?_⟩
    · rw [timeControlCategory, hread]
      rfl
    · rw [hformed.category]
      simp
    · intro r' hr'
      rw [← Option.some.inj hr']
      exact ⟨hraw, hformed⟩

/-- A wording with a word behind it is read. -/
theorem readTimeControl_wellFormed_game : ¬HasLongRun "G/45+15 rapid".toList ∧
    ∃ reading category, readTimeControl "G/45+15 rapid".toList = .ok reading ∧
      timeControlCategory "G/45+15 rapid".toList = .ok category ∧
      (reading = none ↔ isBlankText "G/45+15 rapid".toList = true) ∧
      (category.isSome = true ↔ ∃ r, reading = some r ∧ r.HasShape .periods) ∧
      ∀ r, reading = some r → r.raw = "G/45+15 rapid".toList ∧ r.IsWellFormed := by
  have hlong : ¬HasLongRun "G/45+15 rapid".toList := not_hasLongRun_of_length_le (by decide)
  exact ⟨hlong, readTimeControl_wellFormed _ hlong⟩

end Scoresheet
