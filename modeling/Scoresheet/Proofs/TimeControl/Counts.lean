import Mathlib.Data.List.Forall2
import Scoresheet.Proofs.Record.DigitRuns
import Scoresheet.Proofs.Text.LeadingZeros
import Scoresheet.TimeControl.Strict

/-!
# Numbers and periods of time controls

A count is read off a numeral exactly if it is in range (`readCount_eq_some_iff`). A period is read
off a text exactly if the text has the form `moves/base+increment` with such numerals, of which only
the base must be there (`readPeriod_eq_some_iff`). Nothing but a numeral of too many digits keeps
these readers from an answer.
-/

namespace Scoresheet

open Text

namespace TimeControl

/-! ## Answers -/

section Answers

variable {α β : Type} {x : Except OversizedNumeral α} {f : α → Except OversizedNumeral β}

/-- A reading that meets no numeral of too many digits. -/
def Answers (x : Except OversizedNumeral α) : Prop := ∃ a, x = .ok a

theorem answers_ok (a : α) : Answers (.ok a) := ⟨a, rfl⟩

theorem bind_eq_ok {b : β} : x >>= f = .ok b ↔ ∃ a, x = .ok a ∧ f a = .ok b := by
  cases x with
  | ok a => exact ⟨fun h => ⟨a, rfl, h⟩, fun ⟨_, ha, h⟩ => Except.ok.inj ha ▸ h⟩
  | error e => simp [bind, Except.bind]

theorem bind_eq_error {e : OversizedNumeral} (h : x = .error e) : x >>= f = .error e := by
  rw [h]
  rfl

theorem Answers.bind (hx : Answers x) (hf : ∀ a, x = .ok a → Answers (f a)) :
    Answers (x >>= f) := by
  obtain ⟨a, ha⟩ := hx
  obtain ⟨b, hb⟩ := hf a ha
  exact ⟨b, bind_eq_ok.2 ⟨a, ha, hb⟩⟩

theorem Answers.mapM {ts : List α} (h : ∀ t ∈ ts, Answers (f t)) : Answers (ts.mapM f) := by
  induction ts with
  | nil => exact answers_ok []
  | cons t ts ih =>
    rw [List.mapM_cons]
    refine (h t List.mem_cons_self).bind fun b _ => ?_
    refine (ih fun u hu => h u (List.mem_cons_of_mem t hu)).bind fun bs _ => ?_
    exact answers_ok (b :: bs)

/-- Readings of several items, one after another. -/
theorem mapM_eq_ok_iff {ts : List α} {bs : List β} :
    ts.mapM f = .ok bs ↔ List.Forall₂ (fun t b => f t = .ok b) ts bs := by
  induction ts generalizing bs with
  | nil =>
    rw [List.forall₂_nil_left_iff]
    show Except.ok [] = Except.ok bs ↔ bs = []
    simp [eq_comm]
  | cons t ts ih =>
    rw [List.forall₂_cons_left_iff]
    simp only [List.mapM_cons, bind_eq_ok]
    constructor
    · rintro ⟨b, hb, more, hmore, h⟩
      exact ⟨b, more, hb, ih.1 hmore, (Except.ok.inj h).symm⟩
    · rintro ⟨b, more, hb, hmore, rfl⟩
      exact ⟨b, hb, more, ih.2 hmore, rfl⟩

/-- All of some values are there. -/
theorem mapM_id_eq_some_iff {os : List (Option β)} {bs : List β} :
    os.mapM id = some bs ↔ os = bs.map some := by
  induction os generalizing bs with
  | nil =>
    show some [] = some bs ↔ [] = bs.map some
    rw [Option.some_inj, eq_comm, eq_comm (a := []), List.map_eq_nil_iff]
  | cons o os ih =>
    rw [List.mapM_cons]
    constructor
    · intro h
      obtain ⟨b, hb, h⟩ := Option.bind_eq_some_iff.1 h
      obtain ⟨more, hmore, h⟩ := Option.bind_eq_some_iff.1 h
      have ho : o = some b := hb
      rw [← Option.some.inj h, ho, ih.1 hmore, List.map_cons]
    · intro h
      obtain ⟨b, more, rfl, rfl, hmore⟩ := List.map_eq_cons_iff.1 h.symm
      exact Option.bind_eq_some_iff.2 ⟨b, rfl,
        Option.bind_eq_some_iff.2 ⟨more, ih.2 hmore.symm, rfl⟩⟩

/-- Readings that have to succeed one and all. -/
theorem mapM_bind_eq_some_iff {f : α → Except OversizedNumeral (Option β)} {ts : List α}
    {bs : List β} : (do return (← ts.mapM f).mapM id) = Except.ok (some bs) ↔
      List.Forall₂ (fun t b => f t = .ok (some b)) ts bs := by
  rw [bind_eq_ok]
  constructor
  · rintro ⟨os, hos, h⟩
    have hall := mapM_eq_ok_iff.1 hos
    rwa [mapM_id_eq_some_iff.1 (Except.ok.inj h), List.forall₂_map_right_iff] at hall
  · intro h
    have hall : List.Forall₂ (fun t o => f t = .ok o) ts (bs.map some) := by
      rwa [List.forall₂_map_right_iff]
    refine ⟨bs.map some, mapM_eq_ok_iff.2 hall, ?_⟩
    rw [mapM_id_eq_some_iff.2 rfl]
    rfl

end Answers

/-! ## Counts -/

theorem readCount_of_not_isNumeral {t : Text} (h : isNumeral t = false) : readCount t = .ok none := by
  rw [readCount, h]
  rfl

/-- A text with a character that is no digit is no count. -/
theorem readCount_of_mem {t : Text} {c : Char} (hc : c ∈ t) (h : isAsciiDigit c = false) :
    readCount t = .ok none := by
  refine readCount_of_not_isNumeral (Bool.eq_false_iff.2 fun hnumeral => ?_)
  rw [isAsciiDigit_of_isNumeral hnumeral hc] at h
  exact Bool.noConfusion h

theorem readCount_numeral {n : Numeral} (h : n.text.length ≤ maxDigits) :
    readCount n.text = .ok (inRange? n.value) := by
  rw [readCount, if_pos n.text_isNumeral, readNumeral, if_pos h]
  rfl

theorem readCount_oversized {n : Numeral} (h : maxDigits < n.text.length) :
    readCount n.text = .error ⟨n.text.length⟩ := by
  rw [readCount, if_pos n.text_isNumeral, readNumeral, if_neg (by omega)]
  rfl

theorem inRange?_eq_some_iff {n k : Nat} : inRange? n = some k ↔ n = k ∧ n ≤ maxCount := by
  unfold inRange?
  split
  · rename_i h
    simp [h]
  · rename_i h
    simp [h]

/-- A numeral that is converted and whose number is in range. -/
structure IsCount (n : Numeral) : Prop where
  isShort : n.text.length ≤ maxDigits
  inRange : n.value ≤ maxCount

theorem IsCount.readCount {n : Numeral} (h : IsCount n) : readCount n.text = .ok (some n.value) := by
  rw [readCount_numeral h.isShort, inRange?_eq_some_iff.2 ⟨rfl, h.inRange⟩]

/-- **A count** is the number of a numeral in range. -/
theorem readCount_eq_some_iff {t : Text} {k : Nat} :
    readCount t = .ok (some k) ↔ ∃ n : Numeral, t = n.text ∧ IsCount n ∧ n.value = k := by
  constructor
  · intro h
    by_cases hnumeral : isNumeral t = true
    · let n : Numeral := ⟨t, hnumeral⟩
      by_cases hlength : t.length ≤ maxDigits
      · have hread : readCount t = .ok (inRange? n.value) := readCount_numeral (n := n) hlength
        rw [hread] at h
        obtain ⟨hvalue, hrange⟩ := inRange?_eq_some_iff.1 (Except.ok.inj h)
        exact ⟨n, rfl, ⟨hlength, hrange⟩, hvalue⟩
      · have hread : readCount t = _ := readCount_oversized (n := n) (Nat.lt_of_not_le hlength)
        rw [hread] at h
        simp at h
    · rw [readCount_of_not_isNumeral (by simpa using hnumeral)] at h
      simp at h
  · rintro ⟨n, rfl, hn, rfl⟩
    exact hn.readCount

theorem le_maxCount_of_readCount {t : Text} {k : Nat} (h : readCount t = .ok (some k)) :
    k ≤ maxCount := by
  obtain ⟨n, _, hn, rfl⟩ := readCount_eq_some_iff.1 h
  exact hn.inRange

/-- A numeral of a number in range has few digits. -/
theorem isCount_ofNat {k : Nat} (h : k ≤ maxCount) : IsCount (.ofNat k) where
  isShort := by
    have hmax : (decimal maxCount).length ≤ maxDigits := by decide
    exact (length_decimal_le h).trans hmax
  inRange := by rwa [Numeral.value_ofNat]

theorem answers_readCount {t : Text} (h : ¬HasLongRun t) : Answers (readCount t) := by
  by_cases hnumeral : isNumeral t = true
  · refine ⟨_, readCount_numeral (n := ⟨t, hnumeral⟩) (Nat.le_of_not_lt fun hlength => h ?_)⟩
    exact Text.IsOversized.hasLongRun ⟨hnumeral, hlength⟩
  · exact ⟨_, readCount_of_not_isNumeral (by simpa using hnumeral)⟩

end TimeControl

open TimeControl

/-! ## Periods -/

/-- All numbers of a period are in range. -/
structure Period.InRange (p : Period) : Prop where
  base : p.base ≤ maxCount
  moves : ∀ m ∈ p.moves, m ≤ maxCount
  increment : ∀ i ∈ p.increment, i ≤ maxCount

/-- The numerals with which a period is written. -/
structure PeriodNumerals where
  moves : Option Numeral
  base : Numeral
  increment : Option Numeral

namespace PeriodNumerals

/-- The numerals, from left to right. -/
def toList (s : PeriodNumerals) : List Numeral := s.moves.toList ++ s.base :: s.increment.toList

/-- What stands before the increment, with the numerals spelled in a given way. -/
def spelledBase (spell : Numeral → Text) (s : PeriodNumerals) : Text :=
  match s.moves with
  | some m => spell m ++ '/' :: spell s.base
  | none => spell s.base

/-- The form `moves/base+increment`, with the numerals spelled in a given way. -/
def spelled (spell : Numeral → Text) (s : PeriodNumerals) : Text :=
  match s.increment with
  | some i => s.spelledBase spell ++ '+' :: spell i
  | none => s.spelledBase spell

/-- The form `moves/base+increment`, where the moves and the increment may be missing. -/
def toText (s : PeriodNumerals) : Text := s.spelled Numeral.text

/-- The period that is written. -/
def period (s : PeriodNumerals) : Period :=
  ⟨s.base.value, s.moves.map Numeral.value, s.increment.map Numeral.value⟩

/-- All numerals are converted and in range. -/
def AreCounts (s : PeriodNumerals) : Prop := ∀ n ∈ s.toList, IsCount n

/-- The numerals that are written for the numbers of a period. -/
def ofPeriod (p : Period) : PeriodNumerals :=
  ⟨p.moves.map .ofNat, .ofNat p.base, p.increment.map .ofNat⟩

variable (s : PeriodNumerals)

/-- **A period is written** like its numerals without the zeros in front. -/
theorem toText_period : s.period.toText = s.spelled fun n => withoutLeadingZeros n.text := by
  obtain ⟨moves, base, increment⟩ := s
  cases moves <;> cases increment <;>
    simp [Period.toText, period, spelled, spelledBase, Numeral.decimal_value]

@[simp] theorem period_ofPeriod (p : Period) : (ofPeriod p).period = p := by
  obtain ⟨base, moves, increment⟩ := p
  cases moves <;> cases increment <;> simp [ofPeriod, period]

theorem toText_ofPeriod (p : Period) : (ofPeriod p).toText = p.toText := by
  obtain ⟨base, moves, increment⟩ := p
  cases moves <;> cases increment <;>
    simp [Period.toText, ofPeriod, toText, spelled, spelledBase, Numeral.ofNat]

theorem areCounts_ofPeriod {p : Period} (h : p.InRange) : (ofPeriod p).AreCounts := by
  intro n hn
  simp only [toList, ofPeriod, List.mem_append, List.mem_cons, Option.mem_toList,
    Option.map_eq_some_iff] at hn
  rcases hn with ⟨m, hm, rfl⟩ | rfl | ⟨i, hi, rfl⟩
  · exact isCount_ofNat (h.moves m hm)
  · exact isCount_ofNat h.base
  · exact isCount_ofNat (h.increment i hi)

variable {s}

theorem AreCounts.inRange (h : s.AreCounts) : s.period.InRange where
  base := (h s.base (by simp [toList])).inRange
  moves := by
    intro m hm
    obtain ⟨n, hn, rfl⟩ := Option.map_eq_some_iff.1 (Option.mem_def.1 hm)
    exact (h n (by simp [toList, hn])).inRange
  increment := by
    intro i hi
    obtain ⟨n, hn, rfl⟩ := Option.map_eq_some_iff.1 (Option.mem_def.1 hi)
    exact (h n (by simp [toList, hn])).inRange

/-- The sign before the increment stands in no other place. -/
theorem plus_not_mem_spelledBase (s : PeriodNumerals) : '+' ∉ s.spelledBase Numeral.text := by
  have hnumeral : ∀ n : Numeral, '+' ∉ n.text := fun n => n.not_mem_text (by decide)
  unfold spelledBase
  cases s.moves with
  | none => exact hnumeral s.base
  | some m => simp [hnumeral]

end PeriodNumerals

/-! ## Reading periods -/

namespace TimeControl

theorem readBase_spelledBase {s : PeriodNumerals} (hm : ∀ m ∈ s.moves, IsCount m)
    (hb : IsCount s.base) : readBase (s.spelledBase Numeral.text)
      = .ok (some ⟨s.base.value, s.moves.map Numeral.value, none⟩) := by
  have hslash : ∀ n : Numeral, '/' ∉ n.text := fun n => n.not_mem_text (by decide)
  obtain ⟨moves, base, increment⟩ := s
  unfold readBase PeriodNumerals.spelledBase
  cases moves with
  | none =>
    rw [List.splitOn_eq_singleton (hslash base)]
    simp only [hb.readCount]
    rfl
  | some m =>
    dsimp only
    rw [List.splitOn_append_cons_self_of_not_mem (hslash m), List.splitOn_eq_singleton (hslash base)]
    simp only [(hm m rfl).readCount, hb.readCount]
    rfl

theorem readPeriod_toText {s : PeriodNumerals} (h : s.AreCounts) :
    readPeriod s.toText = .ok (some s.period) := by
  have hbase := readBase_spelledBase (s := s)
    (fun m hm => h m (by simp [PeriodNumerals.toList, Option.mem_def.1 hm]))
    (h s.base (by simp [PeriodNumerals.toList]))
  unfold readPeriod PeriodNumerals.toText PeriodNumerals.spelled
  cases hi : s.increment with
  | none =>
    dsimp only
    rw [List.splitOn_eq_singleton s.plus_not_mem_spelledBase]
    simp only [hbase, PeriodNumerals.period, hi, Option.map_none]
  | some i =>
    have hcount : IsCount i := h i (by simp [PeriodNumerals.toList, hi])
    dsimp only
    rw [List.splitOn_append_cons_self_of_not_mem s.plus_not_mem_spelledBase,
      List.splitOn_eq_singleton (i.not_mem_text (by decide))]
    simp only [hbase, hcount.readCount, PeriodNumerals.period, hi, Option.map_some]
    rfl

/-- What is read before an increment has the form `moves/base`. -/
theorem exists_of_readBase {t : Text} {p : Period} (h : readBase t = .ok (some p)) :
    ∃ s : PeriodNumerals, s.increment = none ∧ s.AreCounts ∧ t = s.toText ∧ s.period = p := by
  have hjoin : join ['/'] (t.splitOn '/') = t := List.intercalate_splitOn '/'
  unfold readBase at h
  -- one part is the base, two parts are the moves and the base
  split at h
  · rename_i base hparts
    rw [hparts, join_singleton] at hjoin
    obtain ⟨count, hread, h⟩ := bind_eq_ok.1 h
    obtain ⟨b, rfl, rfl⟩ := Option.map_eq_some_iff.1 (Except.ok.inj h)
    obtain ⟨n, rfl, hn, rfl⟩ := readCount_eq_some_iff.1 hread
    refine ⟨⟨none, n, none⟩, rfl, ?_, hjoin.symm, rfl⟩
    simpa [PeriodNumerals.AreCounts, PeriodNumerals.toList] using hn
  · rename_i moves base hparts
    rw [hparts, join_cons (List.cons_ne_nil _ _), join_singleton] at hjoin
    obtain ⟨count, hmoves, h⟩ := bind_eq_ok.1 h
    cases count with
    | none => simp [pure, Except.pure] at h
    | some m =>
      obtain ⟨count, hbase, h⟩ := bind_eq_ok.1 h
      obtain ⟨b, rfl, rfl⟩ := Option.map_eq_some_iff.1 (Except.ok.inj h)
      obtain ⟨n, rfl, hn, rfl⟩ := readCount_eq_some_iff.1 hbase
      obtain ⟨k, rfl, hk, rfl⟩ := readCount_eq_some_iff.1 hmoves
      refine ⟨⟨some k, n, none⟩, rfl, ?_, hjoin.symm, rfl⟩
      simpa [PeriodNumerals.AreCounts, PeriodNumerals.toList] using And.intro hk hn
  · simp at h

/-- **What is read as a period** has the form `moves/base+increment`. -/
theorem readPeriod_eq_some_iff {t : Text} {p : Period} :
    readPeriod t = .ok (some p) ↔
      ∃ s : PeriodNumerals, s.AreCounts ∧ t = s.toText ∧ s.period = p := by
  constructor
  · intro h
    have hjoin : join ['+'] (t.splitOn '+') = t := List.intercalate_splitOn '+'
    unfold readPeriod at h
    split at h
    · rename_i base hparts
      rw [hparts, join_singleton] at hjoin
      obtain ⟨s, _, hs, rfl, hp⟩ := exists_of_readBase h
      exact ⟨s, hs, hjoin.symm, hp⟩
    · rename_i base increment hparts
      rw [hparts, join_cons (List.cons_ne_nil _ _), join_singleton] at hjoin
      obtain ⟨read, hbase, h⟩ := bind_eq_ok.1 h
      cases read with
      | none => simp [pure, Except.pure] at h
      | some q =>
        obtain ⟨s, hnone, hs, rfl, rfl⟩ := exists_of_readBase hbase
        obtain ⟨count, hincrement, h⟩ := bind_eq_ok.1 h
        obtain ⟨i, rfl, rfl⟩ := Option.map_eq_some_iff.1 (Except.ok.inj h)
        obtain ⟨n, rfl, hn, rfl⟩ := readCount_eq_some_iff.1 hincrement
        refine ⟨{ s with increment := some n }, ?_, ?_, rfl⟩
        · intro k hk
          simp only [PeriodNumerals.toList, List.mem_append, List.mem_cons, Option.toList_some,
            List.not_mem_nil, or_false] at hk
          rcases hk with hk | rfl | rfl
          · exact hs k (by simp [PeriodNumerals.toList, Option.mem_toList.1 hk])
          · exact hs _ (by simp [PeriodNumerals.toList])
          · exact hn
        · rw [← hjoin]
          simp [PeriodNumerals.toText, PeriodNumerals.spelled, PeriodNumerals.spelledBase, hnone]
    · simp at h
  · rintro ⟨s, hs, rfl, rfl⟩
    exact readPeriod_toText hs

/-- **A period is read back** as it was written. -/
theorem readPeriod_period {p : Period} (h : p.InRange) : readPeriod p.toText = .ok (some p) := by
  rw [← PeriodNumerals.toText_ofPeriod, readPeriod_toText (PeriodNumerals.areCounts_ofPeriod h),
    PeriodNumerals.period_ofPeriod]

/-! ## Short numerals have an answer -/

variable {t : Text}

theorem answers_readBase (h : ¬HasLongRun t) : Answers (readBase t) := by
  have hpart : ∀ part ∈ t.splitOn '/', Answers (readCount part) := by
    intro part hpart
    exact answers_readCount fun hlong => h (hlong.mono (infix_of_mem_splitOn hpart))
  unfold readBase
  split
  · rename_i base hparts
    exact (hpart base (by simp [hparts])).bind fun _ _ => answers_ok _
  · rename_i moves base hparts
    refine (hpart moves (by simp [hparts])).bind fun m _ => ?_
    cases m with
    | none => exact answers_ok none
    | some m => exact (hpart base (by simp [hparts])).bind fun _ _ => answers_ok _
  · exact answers_ok none

theorem answers_readPeriod (h : ¬HasLongRun t) : Answers (readPeriod t) := by
  have hpart : ∀ part ∈ t.splitOn '+', ¬HasLongRun part := by
    intro part hpart hlong
    exact h (hlong.mono (infix_of_mem_splitOn hpart))
  unfold readPeriod
  split
  · rename_i base hparts
    exact answers_readBase (hpart base (by simp [hparts]))
  · rename_i base increment hparts
    refine (answers_readBase (hpart base (by simp [hparts]))).bind fun p _ => ?_
    cases p with
    | none => exact answers_ok none
    | some p =>
      exact (answers_readCount (hpart increment (by simp [hparts]))).bind fun _ _ => answers_ok _
  · exact answers_ok none

theorem answers_arePeriods {ts : List Text} (h : ∀ t ∈ ts, ¬HasLongRun t) :
    Answers (arePeriods ts) := by
  induction ts with
  | nil => exact answers_ok true
  | cons t ts ih =>
    refine (answers_readPeriod (h t List.mem_cons_self)).bind fun p _ => ?_
    cases p with
    | none => exact answers_ok false
    | some p => exact ih fun u hu => h u (List.mem_cons_of_mem t hu)

theorem answers_readSandclock (h : ¬HasLongRun t) : Answers (readSandclock t) := by
  unfold readSandclock
  split
  · exact answers_readCount fun hlong => h (hlong.mono (List.suffix_cons _ _).isInfix)
  · exact answers_ok none

theorem answers_isStandard (h : ¬HasLongRun t) : Answers (isStandard t) := by
  have hparts : ∀ part ∈ t.splitOn ':', ¬HasLongRun part := by
    intro part hpart hlong
    exact h (hlong.mono (infix_of_mem_splitOn hpart))
  have hperiod : Answers do return (← readPeriod t).isSome :=
    (answers_readPeriod h).bind fun _ _ => answers_ok _
  unfold isStandard
  split
  · exact answers_ok true
  · refine (answers_readSandclock h).bind fun seconds _ => ?_
    split
    · exact answers_ok true
    · split
      · refine (answers_arePeriods hparts).bind fun all _ => ?_
        split
        · exact answers_ok true
        · exact hperiod
      · exact hperiod

theorem answers_readStages (h : ¬HasLongRun t) : Answers (readStages t) := by
  have hparts : ∀ part ∈ t.splitOn ':', Answers (readPeriod part) := by
    intro part hpart
    exact answers_readPeriod fun hlong => h (hlong.mono (infix_of_mem_splitOn hpart))
  unfold readStages readPeriods
  dsimp only
  split
  · exact ((Answers.mapM hparts).bind fun _ _ => answers_ok _).bind fun _ _ => answers_ok _
  · exact answers_ok none

theorem answers_readSingle (h : ¬HasLongRun t) : Answers (readSingle t) := by
  refine (answers_readPeriod h).bind fun p _ => ?_
  cases p <;> exact answers_ok _

/-- The standard form has an answer if there are only short numerals. -/
theorem answers_readStandard (h : ¬HasLongRun t) : Answers (readStandard t) := by
  unfold readStandard
  split
  · exact answers_ok _
  · split
    · exact answers_ok _
    · refine (answers_readSandclock h).bind fun seconds _ => ?_
      cases seconds with
      | some seconds => exact answers_ok _
      | none =>
        refine (answers_readStages h).bind fun control _ => ?_
        cases control with
        | some control => exact answers_ok _
        | none => exact answers_readSingle h

end TimeControl

end Scoresheet
