import Scoresheet.Proofs.TimeControl.WordingNumerals

/-!
# What is guessed from a wording

An attempt at a wording is sound (`SoundFor`) if it has an answer as long as there are only short
numerals, and if each guess it comes to fits: the periods have numbers in range, and the numerals
that the wording is understood by are in range. Only the increment of a game, and in free text the
numerals beside the minutes that count, may be out of range; they are dropped (`numeralsIn?`).

Each template is sound, and so is trying several of them in order.
-/

namespace Scoresheet

open Text TimeControl

/-! ## The numerals of an interpretation -/

/-- The numerals that a wording is understood by. -/
structure WordingNumerals where
  /-- Numerals without which the wording is not understood in this way. -/
  required : List Text
  /-- Numerals that are dropped if they are out of range. -/
  optional : List Text
  deriving DecidableEq, Repr

namespace WordingNumerals

/-- Numerals that are all required. -/
def ofRequired (ns : List Text) : WordingNumerals := ⟨ns, []⟩

end WordingNumerals

namespace TimeControl

/-- Base and increment of a plain wording. -/
def baseAndIncrement? (t : Text) : Option (List Text) :=
  match t.splitOn '+' with
  | [base, increment] => some [base, increment]
  | _ => none

/-- The numerals of two stages with an increment in free text. -/
def stageNumerals? (t : Text) : Option (List Text) :=
  match firstStage? t, search restHere? t, search incrementHere? t with
  | some (base, moves), some rest, some (increment, _) => some [base, moves, rest, increment]
  | _, _, _ => none

/-- The numerals of free text that is understood by its parts. The last of the numerals with a unit
of minutes counts; without it nothing is understood. -/
def partNumerals? (t : Text) : Option WordingNumerals :=
  let rest := withoutIncrements t
  let minutes := numeralsWith minuteWords rest
  minutes.getLast?.map fun last =>
    ⟨[last], (search incrementHere? t).toList.map Prod.fst ++ minutes.dropLast
      ++ numeralsWith secondWords rest⟩

/-- The numerals by which a wording is understood in some way. -/
def numeralsIn? (t : Text) : Interpretation → Option WordingNumerals
  | .gameMinutes => (gameNumerals? t).map fun (base, increment) => ⟨[base], increment.toList⟩
  | .apostrophePerMove => (apostrophePerMove? (foldCase t)).map .ofRequired
  | .compactFideApostrophe =>
    ((compactWithMove? (foldCase t)).or (compactToEnd? (foldCase t))).map .ofRequired
  | .compactFideBonus => (compactBonus? (foldCase t)).map .ofRequired
  | .fideAdditional => (fideAdditional? (foldCase t)).map .ofRequired
  | .compactFideTriplePlus => (triplePlus? (foldCase t)).map .ofRequired
  | .twoStageSlash => (twoStageSlash? t).map .ofRequired
  | .compactMinuteSecond => (compactMinuteSecond? (foldCase t)).map .ofRequired
  | .clockStyleBase => (clockStyle? (foldCase t)).map .ofRequired
  | .apostropheNotation => (apostropheNumerals? t).map .ofRequired
  | .smallBaseAsMinutes | .classicalAsMinutes => (baseAndIncrement? t).map .ofRequired
  | .smallNumberAsMinutes => some (.ofRequired [t])
  | .freeTextFideClassical => (stageNumerals? (lower t)).map .ofRequired
  | .freeText => partNumerals? (lower t)

end TimeControl

/-- A text that is a numeral with a number in range. -/
def Text.IsInRange (t : Text) : Prop := ∃ n : Numeral, t = n.text ∧ n.value ≤ maxCount

/-- A guess fits a wording: its periods are in range, and so are the numerals that it needs. -/
structure Guess.Fits (g : TimeControl.Guess) (t : Text) : Prop where
  inRange : ∀ p ∈ g.control.periodList, p.InRange
  numerals : ∃ ns, numeralsIn? t g.how = some ns ∧ ∀ n ∈ ns.required, n.IsInRange

namespace TimeControl

theorem isInRange_of_readCount {t : Text} {k : Nat} (h : readCount t = .ok (some k)) :
    t.IsInRange := by
  obtain ⟨n, ht, hn, _⟩ := readCount_eq_some_iff.1 h
  exact ⟨n, ht, hn.inRange⟩

/-! ## Periods of guesses -/

section Periods

variable {how : Interpretation} {moves increment : Option Nat} {first second : Option Period}

theorem inRange_of_secondsPeriod (seconds : Nat) (hm : ∀ m ∈ moves, m ≤ maxCount)
    (hi : ∀ i ∈ increment, i ≤ maxCount) :
    ∀ p ∈ secondsPeriod seconds moves increment, p.InRange := by
  intro p hp
  obtain ⟨base, hbase, rfl⟩ := Option.map_eq_some_iff.1 (Option.mem_def.1 hp)
  obtain ⟨rfl, hrange⟩ := inRange?_eq_some_iff.1 hbase
  exact ⟨hrange, hm, hi⟩

theorem inRange_single (h : ∀ p ∈ first, p.InRange) :
    ∀ p ∈ (Guess.single how first).control.periodList, p.InRange := by
  cases first with
  | none => simp [Guess.single, Guess.control, periodList]
  | some p => simpa [Guess.single, Guess.control, periodList] using h

theorem inRange_double (hfirst : ∀ p ∈ first, p.InRange) (hsecond : ∀ p ∈ second, p.InRange) :
    ∀ p ∈ (Guess.double how first second).control.periodList, p.InRange := by
  cases first with
  | none => simp [Guess.double, Guess.control, periodList]
  | some p =>
    cases second with
    | none => simp [Guess.double, Guess.control, periodList]
    | some q => simpa [Guess.double, Guess.control, periodList] using And.intro hfirst hsecond

theorem inRange_withRest {m i : Nat} (hm : m ≤ maxCount) (hi : i ≤ maxCount) (base rest : Nat) :
    ∀ p ∈ (Guess.withRest how m base rest i).control.periodList, p.InRange :=
  inRange_double (inRange_of_secondsPeriod _ (by simpa using hm) (by simpa using hi))
    (inRange_of_secondsPeriod _ (by simp) (by simpa using hi))

/-- A period of minutes with seconds for each move. -/
theorem inRange_minutesAndSeconds {i : Nat} (hi : i ≤ maxCount) (minutes : Nat) :
    ∀ p ∈ (Guess.single how (minutesPeriod minutes none (some i))).control.periodList, p.InRange :=
  inRange_single (inRange_of_secondsPeriod _ (by simp) (by simpa using hi))

end Periods

/-! ## Soundness -/

/-- What an attempt at a wording comes to is sound. -/
structure SoundFor (t : Text) (attempt : Attempt) : Prop where
  answers : ¬HasLongRun t → Answers attempt
  fits : ∀ g, attempt = .ok (some g) → Guess.Fits g t

/-- Texts of which none has a long run of digits unless a given text has one. -/
def AreShortWith (t : Text) (ns : List Text) : Prop := ∀ n ∈ ns, HasLongRun n → HasLongRun t

variable {t u : Text}

theorem AreParts.areShortWith {ns : List Text} (h : AreParts t ns) : AreShortWith t ns :=
  fun n hn hlong => hlong.mono (h n hn)

theorem AreParts.areShortWith_foldCase {ns : List Text} (h : AreParts (foldCase t) ns) :
    AreShortWith t ns :=
  fun n hn hlong => (patched_foldCase t).hasLongRun (hlong.mono (h n hn))

theorem AreParts.areShortWith_lower {ns : List Text} (h : AreParts (lower t) ns) :
    AreShortWith t ns :=
  fun n hn hlong => (patched_lower t).hasLongRun (hlong.mono (h n hn))

theorem soundFor_ok {guess : Option Guess} (h : Gives (Guess.Fits · t) guess) :
    SoundFor t (.ok guess) where
  answers := fun _ => answers_ok guess
  fits := fun g hg => h g (Except.ok.inj hg)

theorem soundFor_none : SoundFor t (.ok none) := soundFor_ok gives_none

theorem SoundFor.bind {α : Type} {x : Except OversizedNumeral α} {f : α → Attempt}
    (hx : ¬HasLongRun t → Answers x) (hf : ∀ a, x = .ok a → SoundFor t (f a)) :
    SoundFor t (x >>= f) where
  answers := fun h => (hx h).bind fun a ha => (hf a ha).answers h
  fits := by
    intro g hg
    obtain ⟨a, ha, hg⟩ := bind_eq_ok.1 hg
    exact (hf a ha).fits g hg

theorem answers_readCounts {ns : List Text} (hns : AreShortWith t ns) (h : ¬HasLongRun t) :
    Answers (ns.mapM readCount) :=
  Answers.mapM fun n hn => answers_readCount fun hlong => h (hns n hn hlong)

/-- Each item of the first list has its counterpart in the second. -/
theorem exists_of_forall₂ {α β : Type} {R : α → β → Prop} {as : List α} {bs : List β}
    (h : List.Forall₂ R as bs) {a : α} (ha : a ∈ as) : ∃ b ∈ bs, R a b := by
  induction h with
  | nil => simp at ha
  | cons hfirst _ ih =>
    rcases List.mem_cons.1 ha with rfl | ha
    · exact ⟨_, List.mem_cons_self, hfirst⟩
    · obtain ⟨b, hb, hab⟩ := ih ha
      exact ⟨b, List.mem_cons_of_mem _ hb, hab⟩

/-- **A template** is sound if it takes its numerals out of the wording. -/
theorem soundFor_guessFrom {numerals : Option (List Text)} {build : List Nat → Option Guess}
    (hnumerals : Gives (AreShortWith t) numerals)
    (hbuild : ∀ ks, (∀ k ∈ ks, k ≤ maxCount) → Gives (fun g =>
      (∀ p ∈ g.control.periodList, p.InRange) ∧
        numeralsIn? t g.how = numerals.map .ofRequired) (build ks)) :
    SoundFor t (guessFrom numerals build) := by
  cases numerals with
  | none => exact soundFor_none
  | some ns =>
    -- each count that was read has its numeral, and each numeral its count
    have hanswers : ¬HasLongRun t → Answers (readCounts ns) :=
      fun h => (answers_readCounts (hnumerals ns rfl) h).bind fun _ _ => answers_ok _
    refine SoundFor.bind hanswers fun counts hcounts => soundFor_ok fun g hg => ?_
    obtain ⟨ks, rfl, hks⟩ := Option.bind_eq_some_iff.1 hg
    have hall : List.Forall₂ (fun n k => readCount n = .ok (some k)) ns ks :=
      mapM_bind_eq_some_iff.1 hcounts
    have hrange : ∀ k ∈ ks, k ≤ maxCount := by
      intro k hk
      obtain ⟨n, _, hn⟩ := exists_of_forall₂ hall.flip hk
      exact le_maxCount_of_readCount hn
    obtain ⟨hperiods, hwording⟩ := hbuild ks hrange g hks
    refine ⟨hperiods, .ofRequired ns, hwording, fun n hn => ?_⟩
    obtain ⟨k, _, hk⟩ := exists_of_forall₂ hall hn
    exact isInRange_of_readCount hk

/-- **Attempts in order** are sound if each of them is. -/
theorem soundFor_firstGuess {attempts : List (Text → Attempt)}
    (h : ∀ attempt ∈ attempts, SoundFor t (attempt u)) : SoundFor t (firstGuess u attempts) := by
  induction attempts with
  | nil => exact soundFor_none
  | cons attempt attempts ih =>
    obtain ⟨hattempt, hattempts⟩ := List.forall_mem_cons.1 h
    refine SoundFor.bind hattempt.answers fun guess hguess => ?_
    cases guess with
    | some g => exact soundFor_ok (gives_some (hattempt.fits g hguess))
    | none => exact ih hattempts

/-! ## The templates -/

theorem soundFor_game (t : Text) : SoundFor t (inferGame t) := by
  have hshort := gives_gameNumerals? t
  unfold inferGame
  split
  · exact soundFor_none
  · rename_i base increment hnumerals
    have hanswers : ¬HasLongRun t → ∀ n ∈ base :: increment.toList, Answers (readCount n) :=
      fun h n hn => answers_readCount fun hlong => h (hshort _ hnumerals n hn hlong)
    refine SoundFor.bind (fun h => hanswers h base List.mem_cons_self) fun minutes hminutes => ?_
    cases minutes with
    | none => exact soundFor_none
    | some minutes =>
      have hfits : ∀ seconds : Option Nat, (∀ i ∈ seconds, i ≤ maxCount) →
          Guess.Fits (.single .gameMinutes (minutesPeriod minutes none seconds)) t := by
        intro seconds hrange
        refine ⟨inRange_single (inRange_of_secondsPeriod _ (by simp) hrange),
          ⟨[base], increment.toList⟩, ?_, ?_⟩
        · show (gameNumerals? t).map _ = _
          rw [hnumerals]
          rfl
        · simpa using isInRange_of_readCount hminutes
      cases increment with
      | none => exact soundFor_ok (gives_some (hfits none (by simp)))
      | some i =>
        refine SoundFor.bind (fun h => hanswers h i (by simp)) fun seconds hseconds => ?_
        refine soundFor_ok (gives_some (hfits seconds fun k hk => ?_))
        rw [Option.mem_def.1 hk] at hseconds
        exact le_maxCount_of_readCount hseconds

theorem soundFor_apostrophePerMove (t : Text) : SoundFor t (inferApostrophePerMove t) := by
  refine soundFor_guessFrom (fun ns h => (gives_apostrophePerMove? _ ns h).areShortWith_foldCase) ?_
  intro ks hks
  split
  · exact gives_some ⟨inRange_minutesAndSeconds (hks _ (by simp)) _, rfl⟩
  · exact gives_none

theorem soundFor_compactFide (t : Text) : SoundFor t (inferCompactFide t) := by
  have hcompact := (gives_compactWithMove? (foldCase t)).or (gives_compactToEnd? (foldCase t))
  unfold inferCompactFide
  dsimp only
  split
  · rename_i numerals heq
    refine soundFor_guessFrom (gives_some (hcompact _ heq).areShortWith_foldCase) ?_
    intro ks hks
    split
    · rw [← heq]
      exact gives_some ⟨inRange_withRest (hks _ (by simp)) (hks _ (by simp)) _ _, rfl⟩
    · exact gives_none
  · refine soundFor_guessFrom (fun ns h => (gives_compactBonus? _ ns h).areShortWith_foldCase) ?_
    intro ks hks
    split
    · exact gives_some ⟨inRange_withRest (hks _ (by simp)) (hks _ (by simp)) _ _, rfl⟩
    · exact gives_none

theorem soundFor_fideAdditional (t : Text) : SoundFor t (inferFideAdditional t) := by
  refine soundFor_guessFrom (fun ns h => (gives_fideAdditional? _ ns h).areShortWith_foldCase) ?_
  intro ks hks
  split
  · exact gives_some ⟨inRange_withRest (by decide) (hks _ (by simp)) _ _, rfl⟩
  · exact gives_none

theorem soundFor_triplePlus (t : Text) : SoundFor t (inferTriplePlus t) := by
  refine soundFor_guessFrom (fun ns h => (gives_triplePlus? _ ns h).areShortWith_foldCase) ?_
  intro ks hks
  split
  · exact gives_some ⟨inRange_withRest (by decide) (hks _ (by simp)) _ _, rfl⟩
  · exact gives_none

theorem soundFor_twoStageSlash (t : Text) : SoundFor t (inferTwoStageSlash t) := by
  refine soundFor_guessFrom (fun ns h => (gives_twoStageSlash? _ ns h).areShortWith) ?_
  intro ks hks
  split
  · rename_i first i second j
    have hi : i ≤ maxCount := hks i (by simp)
    have hj : j ≤ maxCount := hks j (by simp)
    exact gives_some ⟨inRange_double (inRange_of_secondsPeriod _ (by simp) (by simpa using hi))
      (inRange_of_secondsPeriod _ (by simp) (by simpa using hj)), rfl⟩
  · exact gives_none

theorem soundFor_compactMinuteSecond (t : Text) : SoundFor t (inferCompactMinuteSecond t) := by
  refine soundFor_guessFrom
    (fun ns h => (gives_compactMinuteSecond? _ ns h).areShortWith_foldCase) ?_
  intro ks hks
  split
  · exact gives_some ⟨inRange_minutesAndSeconds (hks _ (by simp)) _, rfl⟩
  · exact gives_none

theorem soundFor_clockStyle (t : Text) : SoundFor t (inferClockStyle t) := by
  refine soundFor_guessFrom (fun ns h => (gives_clockStyle? _ ns h).areShortWith_foldCase) ?_
  intro ks hks
  split
  · rename_i hours minutes increment
    have hi : increment ≤ maxCount := hks increment (by simp)
    exact gives_some ⟨inRange_single (inRange_of_secondsPeriod _ (by simp) (by simpa using hi)), rfl⟩
  · exact gives_none

section Apostrophes

variable {ns : List Text}

theorem answers_of_apostropheNumerals (hns : apostropheNumerals? t = some ns) (h : ¬HasLongRun t) :
    ∀ n ∈ ns, Answers (readCount n) := by
  intro n hn
  exact answers_readCount fun hlong =>
    h ((gives_apostropheNumerals? t ns hns).areShortWith n hn hlong)

theorem fits_of_apostropheNumerals (hns : apostropheNumerals? t = some ns)
    (hrange : ∀ n ∈ ns, n.IsInRange) {p : Option Period} (hp : ∀ q ∈ p, q.InRange) :
    Guess.Fits (.single .apostropheNotation p) t := by
  refine ⟨inRange_single hp, .ofRequired ns, ?_, hrange⟩
  show (apostropheNumerals? t).map _ = _
  rw [hns]
  rfl

/-- The seconds behind the minutes may be missing. -/
theorem soundFor_minutesAndSeconds {minutes seconds : Text}
    (hns : apostropheNumerals? t = some (minutesAndSeconds minutes seconds)) :
    SoundFor t (do
      match ← readCount minutes with
      | none => return none
      | some m =>
        let s ← if seconds.isEmpty then .ok (some 0) else readCount seconds
        return s.map fun s => .single .apostropheNotation (minutesPeriod m none (some s))) := by
  have hperiod : ∀ (m s : Nat), s ≤ maxCount → ∀ q ∈ minutesPeriod m none (some s), q.InRange :=
    fun m s hs => inRange_of_secondsPeriod _ (by simp) (by simpa using hs)
  have hanswers := answers_of_apostropheNumerals hns
  unfold minutesAndSeconds at hns hanswers
  refine SoundFor.bind (fun h => hanswers h minutes (by split <;> simp)) fun m hm => ?_
  cases m with
  | none => exact soundFor_none
  | some m =>
    have hminutes := isInRange_of_readCount hm
    cases hseconds : seconds.isEmpty with
    | true =>
      rw [hseconds] at hns
      exact soundFor_ok (gives_some
        (fits_of_apostropheNumerals hns (by simpa using hminutes) (hperiod m 0 (Nat.zero_le _))))
    | false =>
      rw [hseconds] at hns hanswers
      refine SoundFor.bind (fun h => hanswers h seconds (by simp)) fun count hcount => ?_
      refine soundFor_ok fun g hg => ?_
      obtain ⟨s, rfl, rfl⟩ := Option.map_eq_some_iff.1 hg
      refine fits_of_apostropheNumerals hns ?_ (hperiod m s (le_maxCount_of_readCount hcount))
      simpa using And.intro hminutes (isInRange_of_readCount hcount)

/-- A single numeral with apostrophes. -/
theorem soundFor_singleNumeral {numeral : Text} (hns : apostropheNumerals? t = some [numeral])
    {period : Nat → Option Period} (hperiod : ∀ k, ∀ q ∈ period k, q.InRange) :
    SoundFor t (do
      return (← readCount numeral).map fun k => .single .apostropheNotation (period k)) := by
  have hanswers := answers_of_apostropheNumerals hns
  refine SoundFor.bind (fun h => hanswers h numeral (by simp)) fun count hcount => ?_
  refine soundFor_ok fun g hg => ?_
  obtain ⟨k, rfl, rfl⟩ := Option.map_eq_some_iff.1 hg
  exact fits_of_apostropheNumerals hns (by simpa using isInRange_of_readCount hcount) (hperiod k)

theorem soundFor_apostrophes (t : Text) : SoundFor t (inferApostrophes t) := by
  unfold inferApostrophes
  split
  · rename_i reversed hreverse
    split
    · rename_i minutes seconds hcut
      have hns : apostropheNumerals? t = some (minutesAndSeconds minutes (withoutPlus seconds)) := by
        simp only [apostropheNumerals?, hreverse, hcut]
      exact soundFor_minutesAndSeconds hns
    · rename_i seconds hcut
      have hns : apostropheNumerals? t = some [seconds] := by
        simp only [apostropheNumerals?, hreverse, hcut]
      exact soundFor_singleNumeral hns fun s => inRange_of_secondsPeriod s (by simp) (by simp)
  · rename_i reversed hsingle hreverse
    have hns : apostropheNumerals? t = some [reversed.reverse] := by
      simp only [apostropheNumerals?, hreverse]
    exact soundFor_singleNumeral hns fun m => inRange_of_secondsPeriod _ (by simp) (by simp)
  · exact soundFor_none

end Apostrophes

theorem soundFor_smallBase (t : Text) : SoundFor t (inferSmallBase t) := by
  unfold inferSmallBase
  split
  · rename_i base increment hparts
    have hanswers : ¬HasLongRun t → ∀ n ∈ [base, increment], Answers (readCount n) := by
      intro h n hn
      rw [← hparts] at hn
      exact answers_readCount fun hlong => h (hlong.mono (infix_of_mem_splitOn hn))
    refine SoundFor.bind (fun h => hanswers h base (by simp)) fun b hb => ?_
    refine SoundFor.bind (fun h => hanswers h increment (by simp)) fun i hi => ?_
    cases b with
    | none => exact soundFor_none
    | some b =>
      cases i with
      | none => exact soundFor_none
      | some i =>
        have hns : (baseAndIncrement? t).map WordingNumerals.ofRequired
            = some (.ofRequired [base, increment]) := by
          rw [baseAndIncrement?, hparts]
          rfl
        have hrange : ∀ n ∈ [base, increment], Text.IsInRange n := by
          simpa using And.intro (isInRange_of_readCount hb) (isInRange_of_readCount hi)
        have hperiods : ∀ how, ∀ p ∈ (Guess.single how (minutesPeriod b none
            (some i))).control.periodList, p.InRange :=
          fun _ => inRange_minutesAndSeconds (le_maxCount_of_readCount hi) b
        dsimp only
        split
        · exact soundFor_ok (gives_some ⟨hperiods _, _, hns, hrange⟩)
        · split
          · exact soundFor_ok (gives_some ⟨hperiods _, _, hns, hrange⟩)
          · exact soundFor_none
  · exact soundFor_none

theorem soundFor_smallNumber (t : Text) : SoundFor t (inferSmallNumber t) := by
  unfold inferSmallNumber
  split
  · exact soundFor_none
  · refine SoundFor.bind answers_readCount fun n hn => ?_
    cases n with
    | none => exact soundFor_none
    | some n =>
      dsimp only
      split
      · have hrange : ∀ u ∈ [t], u.IsInRange := by simpa using isInRange_of_readCount hn
        exact soundFor_ok (gives_some
          ⟨inRange_single (inRange_of_secondsPeriod _ (by simp) (by simp)), _, rfl, hrange⟩)
      · exact soundFor_none

/-! ## Free text -/

theorem gives_stageNumerals? (t : Text) : Gives (AreParts t) (stageNumerals? t) := by
  have hstage := gives_firstStage? t
  have hrest := gives_restHere? t
  have hincrement := gives_incrementHere? t
  unfold stageNumerals?
  split
  · rename_i base moves rest increment after h₁ h₂ h₃
    have hbase := hstage _ h₁
    simp only [AreParts, List.forall_mem_cons] at hbase
    refine gives_some ?_
    simpa [AreParts] using
      And.intro hbase.1 (And.intro hbase.2.1 (And.intro (hrest _ h₂) (hincrement _ h₃)))
  · exact gives_none

theorem soundFor_stages (t : Text) : SoundFor t (inferStages (lower t)) := by
  have hstages := gives_stageNumerals? (lower t)
  unfold inferStages
  split
  · rename_i base moves rest increment after h₁ h₂ h₃
    have hns : stageNumerals? (lower t) = some [base, moves, rest, increment] := by
      rw [stageNumerals?, h₁, h₂, h₃]
    refine soundFor_guessFrom (gives_some (hstages _ hns).areShortWith_lower) ?_
    intro ks hks
    split
    · rw [← hns]
      exact gives_some ⟨inRange_withRest (hks _ (by simp)) (hks _ (by simp)) _ _, rfl⟩
    · exact gives_none
  · exact soundFor_none

theorem answers_readLast {ns : List Text} (hns : AreShortWith t ns) (h : ¬HasLongRun t) :
    Answers (readLast ns) :=
  (answers_readCounts hns h).bind fun _ _ => answers_ok _

/-- The last numeral counts. -/
theorem getLast?_of_readLast {ns : List Text} {k : Nat} (h : readLast ns = .ok (some k)) :
    ∃ n, ns.getLast? = some n ∧ readCount n = .ok (some k) := by
  obtain ⟨counts, hcounts, hlast⟩ := bind_eq_ok.1 h
  have hall := List.forall₂_reverse_iff.2 (mapM_eq_ok_iff.1 hcounts)
  have hjoin : counts.reverse.head? = some (some k) := by
    rw [List.head?_reverse]
    exact Option.join_eq_some_iff.1 (Except.ok.inj hlast)
  -- both lists from behind, so that the last numeral and its count stand in front
  rw [← List.head?_reverse]
  generalize ns.reverse = reversed, counts.reverse = read at hall hjoin ⊢
  cases hall with
  | nil => simp at hjoin
  | cons hread _ =>
    rw [List.head?_cons, Option.some_inj] at hjoin
    exact ⟨_, rfl, hjoin ▸ hread⟩

theorem areShortWith_numeralsWith (units : List String) (t : Text) :
    AreShortWith t (numeralsWith units (withoutIncrements (lower t))) := by
  intro n hn hlong
  have hrest := (areParts_numeralsWith units _).areShortWith n hn hlong
  exact (patched_lower t).hasLongRun (hasLongRun_of_withoutIncrements hrest)

/-- Minutes and seconds with an increment that has been read. -/
theorem soundFor_minutesOfParts {increment : Option Nat} (hrange : ∀ i ∈ increment, i ≤ maxCount) :
    SoundFor t (do
      let rest := withoutIncrements (lower t)
      let minutes ← readLast (numeralsWith minuteWords rest)
      let seconds ← readLast (numeralsWith secondWords rest)
      return minutes.map fun m =>
        .single .freeText (((inRange? (m * 60)).bind fun base =>
          inRange? (base + seconds.getD 0)).map fun base => ⟨base, none, increment⟩)) := by
  refine SoundFor.bind (answers_readLast (areShortWith_numeralsWith _ t)) fun minutes hminutes => ?_
  refine SoundFor.bind (answers_readLast (areShortWith_numeralsWith _ t)) fun seconds _ => ?_
  refine soundFor_ok fun g hg => ?_
  obtain ⟨m, rfl, rfl⟩ := Option.map_eq_some_iff.1 hg
  obtain ⟨last, hlast, hread⟩ := getLast?_of_readLast hminutes
  constructor
  · refine inRange_single fun p hp => ?_
    obtain ⟨base, hbase, rfl⟩ := Option.map_eq_some_iff.1 (Option.mem_def.1 hp)
    obtain ⟨_, _, hbase⟩ := Option.bind_eq_some_iff.1 hbase
    obtain ⟨rfl, hmax⟩ := inRange?_eq_some_iff.1 hbase
    exact ⟨hmax, by simp, hrange⟩
  · have hns : numeralsIn? t .freeText = partNumerals? (lower t) := rfl
    rw [partNumerals?, hlast] at hns
    exact ⟨_, hns, by simpa using isInRange_of_readCount hread⟩

theorem soundFor_parts (t : Text) : SoundFor t (inferParts (lower t)) := by
  have hincrement := gives_incrementHere? (lower t)
  unfold inferParts
  split
  · exact soundFor_none
  · cases hsearch : search incrementHere? (lower t) with
    | none => exact soundFor_minutesOfParts (by simp)
    | some found =>
      have hshort : HasLongRun found.1 → HasLongRun t := fun hlong =>
        (patched_lower t).hasLongRun (hlong.mono (hincrement found hsearch))
      refine SoundFor.bind (fun h => answers_readCount fun hlong => h (hshort hlong)) ?_
      intro increment hread
      refine soundFor_minutesOfParts fun i hi => ?_
      rw [Option.mem_def.1 hi] at hread
      exact le_maxCount_of_readCount hread

/-! ## All attempts -/

/-- **Templates are sound**: whichever understands a wording first. -/
theorem soundFor_infer (t : Text) : SoundFor t (infer t) := by
  refine soundFor_firstGuess ?_
  simp only [List.forall_mem_cons]
  exact ⟨soundFor_game t, soundFor_apostrophePerMove t, soundFor_compactFide t,
    soundFor_fideAdditional t, soundFor_triplePlus t, soundFor_twoStageSlash t,
    soundFor_compactMinuteSecond t, soundFor_clockStyle t, soundFor_apostrophes t,
    soundFor_smallBase t, soundFor_smallNumber t, by simp⟩

/-- **Free text is understood soundly.** -/
theorem soundFor_inferFreeText (t : Text) : SoundFor t (inferFreeText t) := by
  refine soundFor_firstGuess ?_
  simp only [List.forall_mem_cons]
  exact ⟨soundFor_stages t, soundFor_parts t, by simp⟩

end TimeControl

end Scoresheet
