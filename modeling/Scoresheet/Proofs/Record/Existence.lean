import Scoresheet.Proofs.Record.SharedAssembly

/-!
# Which games have a record

A header value that makes no sense leaves a note in the record, but a rating or a date with a
numeral of too many digits keeps the game from having a record at all. `exists_ofTranscript_iff`
says that nothing else does: neither the other headers nor anything in the movetext except a
numeric annotation of too many digits.
-/

namespace Scoresheet

open Text Pgn

/-! ## Oversized header values -/

/-- A numeral of more digits than are converted. -/
def Text.IsOversized (t : Text) : Prop := isNumeral t = true ∧ maxDigits < t.length

/-- A date of three numerals of which one has too many digits. -/
def Date.IsOversized (raw : Text) : Prop :=
  ∃ year month day, Date.parts (trim raw) = [year, month, day] ∧
    (∀ part ∈ [year, Date.orFirst month, Date.orFirst day], isNumeral part = true) ∧
    ∃ part ∈ [year, Date.orFirst month, Date.orFirst day], maxDigits < part.length

/-- A rating is oversized, or a date that is tried before one has been found. -/
def Headers.IsOversized (h : Headers) : Prop :=
  (∃ key ∈ ["WhiteElo", "BlackElo"], ∃ raw, h.get? key = some raw ∧ (trim raw).IsOversized) ∨
    ∃ before c after, h.dateCandidates = before ++ c :: after ∧
      (∀ b ∈ before, ∀ d, Date.ofHeader b.1 b.2 ≠ .ok (some d)) ∧ Date.IsOversized c.2

/-! ## Conversions -/

namespace Conversion

/-- A conversion that met a numeral of too many digits. -/
def MeetsOversized {α : Type} (c : Except ConversionFailure α) : Prop :=
  ∃ n, c = .error (.oversized n)

theorem not_meetsOversized_ok {α : Type} (v : α) : ¬MeetsOversized (.ok v) := by
  rintro ⟨n, h⟩
  simp at h

theorem not_meetsOversized_fail {α : Type} (label raw : Text) (cause : String) :
    ¬MeetsOversized (fail label raw cause : Except ConversionFailure α) := by
  rintro ⟨n, h⟩
  simp [fail] at h

theorem meetsOversized_numeral {t : Text} : MeetsOversized (numeral t) ↔ maxDigits < t.length := by
  unfold numeral readNumeral
  by_cases h : t.length ≤ maxDigits
  · rw [if_pos h]
    exact iff_of_false (not_meetsOversized_ok _) (by omega)
  · rw [if_neg h]
    exact iff_of_true ⟨_, rfl⟩ (by omega)

/-- A numeral that is converted before something else. -/
theorem meetsOversized_numeral_bind {α : Type} {t : Text} {f : Nat → Except ConversionFailure α} :
    MeetsOversized (numeral t >>= f) ↔
      maxDigits < t.length ∨ MeetsOversized (f (Nat.ofDigitChars 10 t 0)) := by
  unfold numeral readNumeral
  by_cases h : t.length ≤ maxDigits
  · rw [if_pos h]
    exact (or_iff_right (by omega)).symm
  · rw [if_neg h]
    exact iff_of_true ⟨_, rfl⟩ (Or.inl (by omega))

end Conversion

open Conversion

theorem meetsOversized_readRating (label raw : Text) :
    MeetsOversized (readRating label raw) ↔ (trim raw).IsOversized := by
  unfold readRating Text.IsOversized
  by_cases hunknown : (trim raw == [] || trim raw == ['?'] || trim raw == ['-']) = true
  · have hnot : isNumeral (trim raw) = false := by
      simp only [Bool.or_eq_true, beq_iff_eq] at hunknown
      rcases hunknown with (h | h) | h <;> rw [h] <;> decide
    rw [if_pos hunknown]
    exact iff_of_false (not_meetsOversized_ok _) (by simp [hnot])
  · rw [if_neg hunknown]
    by_cases hnum : isNumeral (trim raw) = true
    · rw [if_pos hnum, and_iff_right hnum, ← meetsOversized_numeral]
      cases numeral (trim raw) with
      | ok n => exact iff_of_false (not_meetsOversized_ok _) (not_meetsOversized_ok _)
      | error e =>
        simp [MeetsOversized, Except.map]
    · rw [if_neg hnum]
      exact iff_of_false (not_meetsOversized_fail _ _ _) fun h => hnum h.1

/-- Three numerals are converted one after another. -/
theorem meetsOversized_ofNumerals (label raw year month day : Text) :
    MeetsOversized (Date.ofNumerals label raw year month day) ↔
      ∃ part ∈ [year, month, day], maxDigits < part.length := by
  have hlast : ∀ y m d : Nat, ¬MeetsOversized (do
      if 1 ≤ y ∧ y ≤ 9999 ∧ 1 ≤ m ∧ m ≤ 12 ∧ 1 ≤ d then
        return some (Date.mk y m (min d (Date.daysInMonth y m)))
      else fail label raw "input is out of range") := by
    intro y m d
    split
    · exact not_meetsOversized_ok _
    · exact not_meetsOversized_fail _ _ _
  unfold Date.ofNumerals
  rw [meetsOversized_numeral_bind, meetsOversized_numeral_bind, meetsOversized_numeral_bind,
    or_iff_left (hlast _ _ _)]
  simp

theorem Date.isOversized_iff {raw year month day : Text}
    (h : Date.parts (trim raw) = [year, month, day]) :
    Date.IsOversized raw ↔
      (∀ part ∈ [year, Date.orFirst month, Date.orFirst day], isNumeral part = true) ∧
        ∃ part ∈ [year, Date.orFirst month, Date.orFirst day], maxDigits < part.length := by
  constructor
  · rintro ⟨y, m, d, hparts, hall⟩
    obtain ⟨rfl, rfl, rfl⟩ : year = y ∧ month = m ∧ day = d := by simpa [h] using hparts
    exact hall
  · exact fun hall => ⟨year, month, day, h, hall⟩

theorem meetsOversized_ofHeader (label raw : Text) :
    MeetsOversized (Date.ofHeader label raw) ↔ Date.IsOversized raw := by
  unfold Date.ofHeader
  dsimp only
  by_cases hempty : (trim raw).isEmpty = true
  · rw [if_pos hempty]
    refine iff_of_false (not_meetsOversized_ok _) ?_
    rintro ⟨year, month, day, hparts, _⟩
    have hnil : Date.parts [] = [[]] := by decide
    simp [List.isEmpty_iff.1 hempty, hnil] at hparts
  · rw [if_neg hempty]
    split
    · rename_i year month day hparts
      rw [Date.isOversized_iff hparts]
      by_cases hunknown : year.contains '?' = true
      · -- a year that is not known is no numeral
        rw [if_pos hunknown]
        refine iff_of_false (not_meetsOversized_ok _) ?_
        rintro ⟨hall, _⟩
        have hyear := hall year List.mem_cons_self
        have hmark := isAsciiDigit_of_isNumeral hyear (List.contains_iff_mem.1 hunknown)
        exact absurd hmark (by decide)
      · rw [if_neg hunknown]
        split
        · rename_i hall
          simp only [Bool.and_eq_true] at hall
          rw [meetsOversized_ofNumerals]
          exact (and_iff_right (by simp [hall])).symm
        · rename_i hnot
          refine iff_of_false (not_meetsOversized_fail _ _ _) ?_
          rintro ⟨hall, _⟩
          exact hnot (by simpa [and_assoc] using hall)
    · rename_i hparts
      refine iff_of_false (not_meetsOversized_fail _ _ _) ?_
      rintro ⟨y, m, d, heq, _⟩
      exact hparts y m d heq

/-- A time has no numeral that could be too long. -/
theorem not_meetsOversized_clockTime (label raw : Text) :
    ¬MeetsOversized (ClockTime.ofHeader label raw) := by
  rintro ⟨n, h⟩
  unfold ClockTime.ofHeader at h
  dsimp only at h
  split at h
  · simp at h
  · split at h
    · simp [Conversion.fail] at h
    · split at h <;> simp at h

/-! ## Headers -/

section Candidates

variable {α : Type} {conversion : Text → Text → Conversion α}

theorem convert_error_iff (label raw : Text) :
    (∃ n, convert conversion label raw = .error n) ↔ MeetsOversized (conversion label raw) := by
  unfold convert MeetsOversized
  cases conversion label raw with
  | ok v => simp
  | error e => cases e <;> simp

theorem convert_value {label raw : Text} {first : Noted α}
    (h : convert conversion label raw = .ok first) {v : α} :
    first.value = some v ↔ conversion label raw = .ok (some v) := by
  unfold convert at h
  cases hc : conversion label raw with
  | ok w =>
    simp only [hc, Except.ok.injEq] at h
    rw [← h]
    simp
  | error e =>
    cases e with
    | senseless error =>
      simp only [hc, Except.ok.injEq] at h
      rw [← h]
      simp
    | oversized n => simp [hc] at h

/-- Either the first element is the one, or it lets one of the rest be it. -/
theorem exists_split_cons {β : Type} {P Q : β → Prop} {c : β} {rest : List β} :
    (∃ before d after, c :: rest = before ++ d :: after ∧ (∀ b ∈ before, P b) ∧ Q d) ↔
      Q c ∨ P c ∧ ∃ before d after, rest = before ++ d :: after ∧ (∀ b ∈ before, P b) ∧ Q d := by
  constructor
  · rintro ⟨before, d, after, h, hbefore, hd⟩
    cases before with
    | nil =>
      obtain ⟨rfl, rfl⟩ : c = d ∧ rest = after := by simpa using h
      exact Or.inl hd
    | cons b before =>
      obtain ⟨rfl, rfl⟩ : c = b ∧ rest = before ++ d :: after := by simpa using h
      exact Or.inr ⟨hbefore c List.mem_cons_self, before, d, after, rfl,
        fun b hb => hbefore b (List.mem_cons_of_mem _ hb), hd⟩
  · rintro (hc | ⟨hc, before, d, after, rfl, hbefore, hd⟩)
    · refine ⟨[], c, rest, rfl, fun b hb => ?_, hc⟩
      simp at hb
    · refine ⟨c :: before, d, after, rfl, fun b hb => ?_, hd⟩
      rcases List.mem_cons.1 hb with rfl | hb
      · exact hc
      · exact hbefore b hb

/-- Candidates are converted up to the first value, so only an oversized numeral before that is
met. -/
theorem convertFirst_error_iff (candidates : List (Text × Text)) :
    (∃ n, convertFirst conversion candidates = .error n) ↔
      ∃ before c after, candidates = before ++ c :: after ∧
        (∀ b ∈ before, ∀ v, conversion b.1 b.2 ≠ .ok (some v)) ∧
        MeetsOversized (conversion c.1 c.2) := by
  induction candidates with
  | nil =>
    refine iff_of_false ?_ ?_
    · rintro ⟨n, h⟩
      simp [convertFirst] at h
    · rintro ⟨before, c, after, h, _⟩
      simp at h
  | cons c rest ih =>
    obtain ⟨label, raw⟩ := c
    rw [exists_split_cons, ← ih, convertFirst, ← convert_error_iff]
    cases hc : convert conversion label raw with
    | error n => exact iff_of_true ⟨n, rfl⟩ (Or.inl ⟨n, rfl⟩)
    | ok first =>
      rw [or_iff_right (by simp)]
      cases hv : first.value with
      | some v =>
        refine iff_of_false ?_ fun h => h.1 v ((convert_value hc).1 hv)
        rintro ⟨n, h⟩
        simp [bind, Except.bind, hv, pure, Except.pure] at h
      | none =>
        have hnone : ∀ v, conversion label raw ≠ .ok (some v) := by
          intro v h
          rw [← convert_value hc, hv] at h
          simp at h
        rw [and_iff_right hnone]
        cases convertFirst conversion rest with
        | error n => simp [bind, Except.bind, hv]
        | ok more => simp [bind, Except.bind, hv, pure, Except.pure]

end Candidates

theorem convertTag_error_iff (h : Headers) (key : String) :
    (∃ n, convertTag readRating h key = .error n) ↔
      ∃ raw, h.get? key = some raw ∧ (trim raw).IsOversized := by
  unfold convertTag
  rw [convertFirst_error_iff]
  cases h.get? key with
  | none => simp
  | some raw =>
    rw [Option.toList_some, List.map_singleton, exists_split_cons, meetsOversized_readRating]
    simp

theorem exists_ok_iff {ε α : Type} {c : Except ε α} :
    (∃ v, c = .ok v) ↔ ¬∃ e, c = .error e := by
  cases c <;> simp

/-- **Headers give a record unless a rating or a date is oversized.** -/
theorem Record.exists_build_iff (h : Headers) (movetext : Text) (outcome : Option Text)
    (diagnostic : Text) :
    (∃ r, Record.build h movetext outcome diagnostic = .ok r) ↔ ¬h.IsOversized := by
  have htime : ¬∃ n, convertFirst ClockTime.ofHeader h.timeCandidates = .error n := by
    rw [convertFirst_error_iff]
    rintro ⟨before, c, after, _, _, hc⟩
    exact not_meetsOversized_clockTime _ _ hc
  have hdate : (∃ n, convertFirst Date.ofHeader h.dateCandidates = .error n) ↔
      ∃ before c after, h.dateCandidates = before ++ c :: after ∧
        (∀ b ∈ before, ∀ d, Date.ofHeader b.1 b.2 ≠ .ok (some d)) ∧ Date.IsOversized c.2 := by
    simp only [convertFirst_error_iff, meetsOversized_ofHeader]
  have hratings : (∃ key ∈ ["WhiteElo", "BlackElo"], ∃ raw,
      h.get? key = some raw ∧ (trim raw).IsOversized) ↔
      (∃ n, convertTag readRating h "WhiteElo" = .error n) ∨
        ∃ n, convertTag readRating h "BlackElo" = .error n := by
    simp only [convertTag_error_iff, List.mem_cons, List.not_mem_nil, or_false, exists_eq_or_imp,
      exists_eq_left]
  obtain ⟨time, ht⟩ := exists_ok_iff.2 htime
  rw [exists_ok_iff, not_iff_not, Headers.IsOversized, hratings, ← hdate, Record.build]
  cases convertTag readRating h "WhiteElo" with
  | error n => simp [bind, Except.bind]
  | ok white =>
    cases convertTag readRating h "BlackElo" with
    | error n => simp [bind, Except.bind]
    | ok black =>
      cases convertFirst Date.ofHeader h.dateCandidates with
      | error n => simp [bind, Except.bind]
      | ok date => simp [bind, Except.bind, ht, pure, Except.pure]

/-! ## Games -/

/-- Headers with the tags among events added. -/
def Headers.hear (h : Headers) : List Event → Headers
  | [] => h
  | .tag key value :: events => (h.add ⟨key, value⟩).hear events
  | _ :: events => h.hear events

theorem Headers.hear_append (events more : List Event) : ∀ h : Headers,
    h.hear (events ++ more) = (h.hear events).hear more := by
  induction events with
  | nil => exact fun _ => rfl
  | cons e events ih =>
    intro h
    cases e <;> exact ih _

/-- The headers of a game. -/
def Pgn.Transcript.headers (t : Transcript) : Headers := Headers.hear [] t.events

/-- Events inside a game are all taken, and the headers are those among them. -/
theorem Assembly.exists_hearAll {events : List Event} (h : ∀ e ∈ events, e.isInner = true) :
    ∀ a : Assembly, ∃ b, a.hearAll events = .ok b ∧ b.headers = a.headers.hear events := by
  induction events with
  | nil => exact fun a => ⟨a, rfl, rfl⟩
  | cons e events ih =>
    intro a
    have he := h e List.mem_cons_self
    have hevents := ih fun e' he' => h e' (List.mem_cons_of_mem _ he')
    cases e with
    | beginTags => simp [Event.isInner] at he
    | endGame => simp [Event.isInner] at he
    | _ => exact hevents _

/-- **A game that is read has a record** exactly if no numeral of its headers or its annotations is
oversized. -/
theorem Record.exists_ofTranscript_iff (path : Text) (gameIndex : Nat) {t : Transcript}
    (ht : t.IsFramed) :
    (∃ r, Record.ofTranscript path gameIndex t = .ok r) ↔
      t.isOversized = false ∧ ¬t.headers.IsOversized := by
  obtain ⟨events, hinner, hevents⟩ := ht
  obtain ⟨a, ha, hheaders⟩ := Assembly.exists_hearAll hinner
    { Assembly.start with phase := .collectingHeaders }
  have hstart : Assembly.start.hearAll (.beginTags :: events) = .ok a := ha
  have hbuild : ∀ note, (∃ r, a.build note = .ok r) ↔ ¬(Headers.hear [] events).IsOversized := by
    intro note
    unfold Assembly.build
    rw [Record.exists_build_iff, hheaders]
    rfl
  have hhear : t.headers = Headers.hear [] events := by
    rw [Transcript.headers, hevents, Headers.hear_append]
    cases t.error <;> rfl
  rw [hhear]
  unfold Record.ofTranscript
  cases he : t.error with
  | none =>
    have hover : t.isOversized = false := by simp [Transcript.isOversized, he]
    rw [hevents, he, Option.isNone_none, if_pos rfl, Assembly.hearAll_append, hstart,
      and_iff_right hover, ← hbuild []]
    -- the end of the game builds the record, and reading it off builds it once more
    show (∃ r, ((a.hearAll [.endGame]).bind fun b => b.build _) = .ok r) ↔ _
    rw [a.hearAll_endGame, diagnostic?, he]
    show (∃ r, ((a.finish []).bind fun b => b.build []) = .ok r) ↔ _
    rw [a.finish_bind_build]
  | some e =>
    rw [hevents, he, Option.isNone_some, if_neg (by simp), List.append_nil, hstart]
    cases e with
    | malformed fault =>
      have hover : t.isOversized = false := by simp [Transcript.isOversized, he]
      rw [and_iff_right hover]
      exact hbuild _
    | oversizedNag n =>
      have hover : t.isOversized = true := by simp [Transcript.isOversized, he]
      simp [bind, Except.bind, hover]

/-- **Games have records** exactly if each of them has one. -/
theorem Record.exists_ofTranscripts_iff (path : Text) {ts : List Transcript}
    (hts : ∀ t ∈ ts, t.IsFramed) : ∀ gameIndex : Nat,
    (∃ records, Record.ofTranscripts path gameIndex ts = .ok records) ↔
      ∀ t ∈ ts, t.isOversized = false ∧ ¬t.headers.IsOversized := by
  induction ts with
  | nil => exact fun _ => iff_of_true ⟨[], rfl⟩ fun t ht => absurd ht (by simp)
  | cons t ts ih =>
    intro gameIndex
    have hfirst := Record.exists_ofTranscript_iff path gameIndex (hts t List.mem_cons_self)
    have hrest := ih (fun u hu => hts u (List.mem_cons_of_mem _ hu)) (gameIndex + 1)
    rw [List.forall_mem_cons, ← hfirst, ← hrest]
    constructor
    · rintro ⟨records, h⟩
      obtain ⟨r, rs, hr, hrs, _⟩ := Record.ofTranscripts_cons_eq_ok.1 h
      exact ⟨⟨r, hr⟩, ⟨rs, hrs⟩⟩
    · rintro ⟨⟨r, hr⟩, ⟨rs, hrs⟩⟩
      exact ⟨r :: rs, Record.ofTranscripts_cons_eq_ok.2 ⟨r, rs, hr, hrs, rfl⟩⟩

end Scoresheet
