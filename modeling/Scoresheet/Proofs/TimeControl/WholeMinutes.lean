import Scoresheet.Proofs.TimeControl.Readings

/-!
# Periods of whole minutes

The informal wordings give times in minutes, and clocks in hours and minutes. So a guess of a single
period has a base in whole minutes, unless it is one of seconds with two apostrophes or of free text
(`hasWholeMinutes_infer`). What the standard form reads as a single period is not short. So a control
of a single period that is short, but not empty, was understood in one of these two ways
(`tellSeconds_of_readTimeControl`).
-/

namespace Scoresheet

open Text

namespace TimeControl

/-! ## What attempts come to -/

section Yields

variable {P : Guess → Prop}

/-- Whatever guess an attempt comes to has a property. -/
def Yields (P : Guess → Prop) (attempt : Attempt) : Prop := ∀ g, attempt = .ok (some g) → P g

theorem yields_ok {guess : Option Guess} (h : Gives P guess) : Yields P (.ok guess) :=
  fun g hg => h g (Except.ok.inj hg)

theorem yields_none : Yields P (.ok none) := yields_ok gives_none

theorem yields_bind {α : Type} {x : Except OversizedNumeral α} {f : α → Attempt}
    (hf : ∀ a, Yields P (f a)) : Yields P (x >>= f) := by
  intro g hg
  obtain ⟨a, _, hg⟩ := bind_eq_ok.1 hg
  exact hf a g hg

theorem yields_guessFrom {numerals : Option (List Text)} {build : List Nat → Option Guess}
    (hbuild : ∀ ks, Gives P (build ks)) : Yields P (guessFrom numerals build) := by
  cases numerals with
  | none => exact yields_none
  | some ns => exact yields_bind fun counts => yields_ok (gives_bind hbuild)

theorem yields_firstGuess {t : Text} {attempts : List (Text → Attempt)}
    (h : ∀ attempt ∈ attempts, Yields P (attempt t)) : Yields P (firstGuess t attempts) := by
  induction attempts with
  | nil => exact yields_none
  | cons attempt attempts ih =>
    obtain ⟨hattempt, hattempts⟩ := List.forall_mem_cons.1 h
    intro g hg
    obtain ⟨guess, hguess, hg⟩ := bind_eq_ok.1 hg
    cases guess with
    | some first => exact hattempt g (hguess.trans hg)
    | none => exact ih hattempts g hg

end Yields

/-! ## Whole minutes -/

/-- A guess of a single period is in whole minutes, unless it may have seconds. -/
def HasWholeMinutes (g : Guess) : Prop :=
  g.how = .apostropheNotation ∨ g.how = .freeText ∨
    ∀ p, g.periods = some (p, []) → 60 ∣ p.base

section Periods

variable {how : Interpretation} {period first second : Option Period} {moves increment : Option Nat}

theorem hasWholeMinutes_single (h : ∀ p ∈ period, 60 ∣ p.base) :
    HasWholeMinutes (.single how period) := by
  refine Or.inr (Or.inr fun p hp => h p ?_)
  obtain ⟨q, hq, hsame⟩ := Option.map_eq_some_iff.1 hp
  rw [← (Prod.mk.inj hsame).1, Option.mem_def, hq]

/-- Two periods are not a single one. -/
theorem hasWholeMinutes_double : HasWholeMinutes (.double how first second) := by
  refine Or.inr (Or.inr fun p hp => ?_)
  obtain ⟨q, _, hq⟩ := Option.bind_eq_some_iff.1 hp
  obtain ⟨r, _, hr⟩ := Option.map_eq_some_iff.1 hq
  exact absurd (Prod.mk.inj hr).2 (List.cons_ne_nil r [])

theorem dvd_of_secondsPeriod {seconds : Nat} (h : 60 ∣ seconds) :
    ∀ p ∈ secondsPeriod seconds moves increment, 60 ∣ p.base := by
  intro p hp
  obtain ⟨base, hbase, rfl⟩ := Option.map_eq_some_iff.1 (Option.mem_def.1 hp)
  rwa [← (inRange?_eq_some_iff.1 hbase).1]

theorem hasWholeMinutes_minutes (how : Interpretation) (minutes : Nat) (increment : Option Nat) :
    HasWholeMinutes (.single how (minutesPeriod minutes none increment)) :=
  hasWholeMinutes_single (dvd_of_secondsPeriod (Nat.dvd_mul_left 60 minutes))

end Periods

/-! ## The templates -/

theorem hasWholeMinutes_game (t : Text) : Yields HasWholeMinutes (inferGame t) := by
  unfold inferGame
  split
  · exact yields_none
  · refine yields_bind fun minutes => ?_
    cases minutes with
    | none => exact yields_none
    | some minutes =>
      have hguess : ∀ increment, HasWholeMinutes
          (.single .gameMinutes (minutesPeriod minutes none increment)) :=
        hasWholeMinutes_minutes _ minutes
      dsimp only
      split <;> exact yields_bind fun increment => yields_ok (gives_some (hguess increment))

theorem hasWholeMinutes_apostrophePerMove (t : Text) :
    Yields HasWholeMinutes (inferApostrophePerMove t) := by
  refine yields_guessFrom fun ks => ?_
  split
  · exact gives_some (hasWholeMinutes_minutes _ _ _)
  · exact gives_none

theorem hasWholeMinutes_compactFide (t : Text) : Yields HasWholeMinutes (inferCompactFide t) := by
  unfold inferCompactFide
  dsimp only
  split <;> refine yields_guessFrom fun ks => ?_
  all_goals
    split
    · exact gives_some hasWholeMinutes_double
    · exact gives_none

theorem hasWholeMinutes_fideAdditional (t : Text) :
    Yields HasWholeMinutes (inferFideAdditional t) := by
  refine yields_guessFrom fun ks => ?_
  split
  · exact gives_some hasWholeMinutes_double
  · exact gives_none

theorem hasWholeMinutes_triplePlus (t : Text) : Yields HasWholeMinutes (inferTriplePlus t) := by
  refine yields_guessFrom fun ks => ?_
  split
  · exact gives_some hasWholeMinutes_double
  · exact gives_none

theorem hasWholeMinutes_twoStageSlash (t : Text) :
    Yields HasWholeMinutes (inferTwoStageSlash t) := by
  refine yields_guessFrom fun ks => ?_
  split
  · exact gives_some hasWholeMinutes_double
  · exact gives_none

theorem hasWholeMinutes_compactMinuteSecond (t : Text) :
    Yields HasWholeMinutes (inferCompactMinuteSecond t) := by
  refine yields_guessFrom fun ks => ?_
  split
  · exact gives_some (hasWholeMinutes_minutes _ _ _)
  · exact gives_none

/-- A clock has hours and minutes. -/
theorem hasWholeMinutes_clockStyle (t : Text) : Yields HasWholeMinutes (inferClockStyle t) := by
  refine yields_guessFrom fun ks => ?_
  split
  · rename_i hours minutes increment
    exact gives_some (hasWholeMinutes_single (dvd_of_secondsPeriod (by omega)))
  · exact gives_none

theorem hasWholeMinutes_apostrophes (t : Text) : Yields HasWholeMinutes (inferApostrophes t) := by
  have hsingle : ∀ period, HasWholeMinutes (.single .apostropheNotation period) :=
    fun _ => Or.inl rfl
  unfold inferApostrophes
  split
  · split
    · refine yields_bind fun minutes => ?_
      cases minutes with
      | none => exact yields_none
      | some minutes =>
        -- with and without a plus sign, with and without seconds
        dsimp only
        split <;> split <;>
          exact yields_bind fun seconds => yields_ok (gives_map fun _ => hsingle _)
    · exact yields_bind fun seconds => yields_ok (gives_map fun _ => hsingle _)
  · exact yields_bind fun minutes => yields_ok (gives_map fun _ => hsingle _)
  · exact yields_none

theorem hasWholeMinutes_smallBase (t : Text) : Yields HasWholeMinutes (inferSmallBase t) := by
  unfold inferSmallBase
  split
  · refine yields_bind fun base => yields_bind fun increment => ?_
    split
    · dsimp only
      split
      · exact yields_ok (gives_some (hasWholeMinutes_minutes _ _ _))
      · split
        · exact yields_ok (gives_some (hasWholeMinutes_minutes _ _ _))
        · exact yields_none
    · exact yields_none
  · exact yields_none

theorem hasWholeMinutes_smallNumber (t : Text) : Yields HasWholeMinutes (inferSmallNumber t) := by
  unfold inferSmallNumber
  split
  · exact yields_none
  · refine yields_bind fun n => ?_
    cases n with
    | none => exact yields_none
    | some n =>
      dsimp only
      split
      · exact yields_ok (gives_some (hasWholeMinutes_minutes _ _ _))
      · exact yields_none

/-- **Templates give whole minutes**, except for seconds with two apostrophes. -/
theorem hasWholeMinutes_infer (t : Text) : Yields HasWholeMinutes (infer t) := by
  refine yields_firstGuess ?_
  simp only [List.forall_mem_cons]
  exact ⟨hasWholeMinutes_game t, hasWholeMinutes_apostrophePerMove t,
    hasWholeMinutes_compactFide t, hasWholeMinutes_fideAdditional t, hasWholeMinutes_triplePlus t,
    hasWholeMinutes_twoStageSlash t, hasWholeMinutes_compactMinuteSecond t,
    hasWholeMinutes_clockStyle t, hasWholeMinutes_apostrophes t, hasWholeMinutes_smallBase t,
    hasWholeMinutes_smallNumber t, by simp⟩

theorem hasWholeMinutes_inferFreeText (t : Text) : Yields HasWholeMinutes (inferFreeText t) := by
  refine yields_firstGuess ?_
  simp only [List.forall_mem_cons]
  refine ⟨?_, ?_, by simp⟩
  · unfold inferStages
    split
    · refine yields_guessFrom fun ks => ?_
      split
      · exact gives_some hasWholeMinutes_double
      · exact gives_none
    · exact yields_none
  · unfold inferParts
    split
    · exact yields_none
    · dsimp only
      split <;>
        refine yields_bind fun increment => yields_bind fun minutes => yields_bind fun seconds => ?_ <;>
        exact yields_ok (gives_map fun _ => Or.inr (Or.inl rfl))

/-! ## Short periods -/

/-- The control is a single period, not empty, whose seconds would be taken for minutes. -/
def IsMinuteLike (control : TimeControl) : Prop :=
  ∃ p inferred, control = .periods p [] inferred ∧ looksLikeMinutes p = true ∧ 0 < p.base

/-- Remarks tell that a wording was understood that may have seconds. -/
def TellSeconds (remarks : List Remark) : Prop :=
  .interpreted .apostropheNotation ∈ remarks ∨ .interpreted .freeText ∈ remarks

/-- A period that is short is not in whole minutes, unless it is empty. -/
theorem not_dvd_of_looksLikeMinutes {p : Period} (h : looksLikeMinutes p = true)
    (hbase : 0 < p.base) : ¬60 ∣ p.base := by
  have hshort := (base_of_looksLikeMinutes h).2
  omega

theorem tellSeconds_of_guess {g : Guess} (h : HasWholeMinutes g) (hminutes : IsMinuteLike g.control) :
    TellSeconds g.remarks := by
  obtain ⟨p, inferred, hcontrol, hlooks, hbase⟩ := hminutes
  have hremark : .interpreted g.how ∈ g.remarks := List.mem_cons_self
  rcases h with hhow | hhow | hwhole
  · exact Or.inl (hhow ▸ hremark)
  · exact Or.inr (hhow ▸ hremark)
  · have hperiods : g.periods = some (p, []) := by
      unfold Guess.control at hcontrol
      split at hcontrol
      · rename_i first later hperiods
        rw [hperiods, (TimeControl.periods.inj hcontrol).1, (TimeControl.periods.inj hcontrol).2.1]
      · simp at hcontrol
    exact absurd (hwhole p hperiods) (not_dvd_of_looksLikeMinutes hlooks hbase)

theorem tellSeconds_of_readTidied {t : Text} {found : TimeControl × List Remark}
    (h : readTidied t = .ok (some found)) (hminutes : IsMinuteLike found.1) :
    TellSeconds found.2 := by
  obtain ⟨control, hcontrol, h⟩ := bind_eq_ok.1 h
  cases control with
  | some control =>
    rw [← Option.some.inj (Except.ok.inj h)] at hminutes
    obtain ⟨p, inferred, rfl, hlooks, _⟩ := hminutes
    rw [not_looksLikeMinutes_of_readStandard hcontrol] at hlooks
    exact absurd hlooks Bool.false_ne_true
  | none =>
    obtain ⟨guess, hguess, h⟩ := bind_eq_ok.1 h
    obtain ⟨g, rfl, rfl⟩ := Option.map_eq_some_iff.1 (Except.ok.inj h)
    have hattempts : Yields HasWholeMinutes (firstGuess t [infer, inferFreeText]) := by
      refine yields_firstGuess ?_
      simp only [List.forall_mem_cons]
      exact ⟨hasWholeMinutes_infer t, hasWholeMinutes_inferFreeText t, by simp⟩
    exact tellSeconds_of_guess (hattempts g hguess) hminutes

theorem TellSeconds.mono {remarks more : List Remark} (h : TellSeconds remarks)
    (hsub : remarks ⊆ more) : TellSeconds more :=
  h.imp (fun hmem => hsub hmem) fun hmem => hsub hmem

theorem tellSeconds_of_readQualified {t : Text} {found : TimeControl × List Remark}
    (h : readQualified t = .ok (some found)) (hminutes : IsMinuteLike found.1) :
    TellSeconds found.2 := by
  obtain ⟨whole, hwhole, h⟩ := bind_eq_ok.1 h
  cases whole with
  | some whole =>
    rw [← Option.some.inj (Except.ok.inj h)] at hminutes ⊢
    exact tellSeconds_of_readTidied hwhole hminutes
  | none =>
    cases hcore : dropQualifier? t with
    | none => simp [hcore, pure, Except.pure] at h
    | some core =>
      rw [hcore] at h
      obtain ⟨read, hread, h⟩ := bind_eq_ok.1 h
      obtain ⟨⟨control, remarks⟩, rfl, rfl⟩ := Option.map_eq_some_iff.1 (Except.ok.inj h)
      exact (tellSeconds_of_readTidied hread hminutes).mono (List.subset_cons_self _ _)

/-- **Where short periods come from**: a value that is read as a single period that is short was
understood by seconds with two apostrophes or by its parts. -/
theorem tellSeconds_of_readTimeControl {raw : Text} (hlong : ¬HasLongRun raw)
    {r : TimeControlReading} (h : readTimeControl raw = .ok (some r))
    (hminutes : IsMinuteLike r.control) : TellSeconds r.remarks := by
  obtain ⟨tidied, _, hread⟩ := readTimeControl_cases hlong (isBlankText_of_readTimeControl h)
  rcases hread with hread | ⟨found, hfound, hread⟩ <;> rw [hread] at h <;>
    rw [← Option.some.inj (Except.ok.inj h)] at hminutes ⊢
  · obtain ⟨p, inferred, hcontrol, _⟩ := hminutes
    simp at hcontrol
  · exact (tellSeconds_of_readQualified hfound hminutes).mono (List.subset_append_right _ _)

end TimeControl

end Scoresheet
