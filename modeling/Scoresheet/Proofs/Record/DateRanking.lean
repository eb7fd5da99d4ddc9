import Scoresheet.Proofs.Record.BadValues
import Scoresheet.Proofs.Record.DigitRuns

/-!
# The best date wins

Three tags may give the date of a record. They are ranked by how much their values say, and of
equally complete ones by their precedence (`Headers.pairwise_ranked`); the date is that of the first
in this order whose value is a date, and what is said about the dates is what is said about the
values before it (`Record.best_date_wins`). Ranking and conversion cut a value into the same parts,
so the completeness of a date counts what the value knows (`Date.completeness_of_ofHeader`).
-/

namespace Scoresheet

open Text

/-! ## Completeness -/

namespace Date

/-- A value that is blank gives no date. -/
theorem ofHeader_of_isBlankText {raw : Text} (label : Text) (h : isBlankText raw = true) :
    ofHeader label raw = .ok none := by
  unfold ofHeader
  simp only [trim_of_isBlankText h, List.isEmpty_nil, if_true]

theorem parts_trim (raw : Text) : parts (trim raw) = parts raw := by
  rw [parts, trim_trim, parts]

/-- A part that is a numeral, or is not known, is known exactly if it is a numeral. -/
theorem isNumeral_eq_of_orFirst {part : Text} (h : isNumeral (orFirst part) = true) :
    isNumeral part = !part.contains '?' := by
  unfold orFirst at h
  cases hmark : part.contains '?' with
  | false =>
    rw [hmark, if_neg Bool.false_ne_true] at h
    rw [h]
    rfl
  | true =>
    rw [Bool.not_true, ← Bool.not_eq_true]
    intro hnumeral
    have hdigit := isAsciiDigit_of_isNumeral hnumeral (List.contains_iff_mem.1 hmark)
    exact absurd hdigit (by decide)

/-- **The completeness of a date** is one more than the number of the other parts that are known. -/
theorem completeness_of_ofHeader {label raw : Text} {date : Date}
    (h : ofHeader label raw = .ok (some date)) :
    ∃ year month day, parts raw = [year, month, day] ∧
      completeness raw = 1 + [month, day].countP fun part => !part.contains '?' := by
  unfold ofHeader at h
  dsimp only at h
  rw [parts_trim] at h
  split at h
  · simp at h
  · split at h
    · rename_i year month day hparts
      refine ⟨year, month, day, hparts, ?_⟩
      split at h
      · simp at h
      · split at h
        · rename_i hnumerals
          simp only [Bool.and_eq_true] at hnumerals
          obtain ⟨⟨hyear, hmonth⟩, hday⟩ := hnumerals
          unfold completeness
          rw [hparts]
          simp only [hyear, if_true, List.countP_cons, List.countP_nil,
            isNumeral_eq_of_orFirst hmonth, isNumeral_eq_of_orFirst hday]
        · simp [Conversion.fail] at h
    · simp [Conversion.fail] at h

end Date

/-! ## Stable sorting -/

/-- **Sorting is stable**: of two elements the one in front is less than the other, or they are
alike and stood in this order before. -/
theorem pairwise_mergeSort_of_pairwise {α : Type} {R : α → α → Prop} (le : α → α → Bool)
    (trans : ∀ a b c, le a b → le b c → le a c) (total : ∀ a b, (le a b || le b a) = true)
    {l : List α} (h : l.Pairwise R) :
    (l.mergeSort le).Pairwise fun a b => le b a = false ∨ (le a b = true ∧ R a b) := by
  induction l with
  | nil => simp
  | cons a l ih =>
    obtain ⟨ha, hl⟩ := List.pairwise_cons.1 h
    obtain ⟨front, back, hsort, hrest, hfront⟩ := List.mergeSort_cons trans total a l
    have hsorted := ih hl
    rw [hrest, List.pairwise_append] at hsorted
    rw [hsort, List.pairwise_append]
    refine ⟨hsorted.1, List.pairwise_cons.2 ⟨fun b hb => Or.inr ⟨?_, ?_⟩, hsorted.2.1⟩, ?_⟩
    · exact le_of_mergeSort_eq_append trans total hsort b hb
    · have hmem : b ∈ l.mergeSort le := hrest ▸ List.mem_append_right front hb
      exact ha b (List.mem_mergeSort.1 hmem)
    · intro b hb c hc
      rcases List.mem_cons.1 hc with rfl | hc
      · exact Or.inl (by simpa using hfront b hb)
      · exact hsorted.2.2 b hb c hc

/-! ## Tags that may give the date -/

/-- The tags that may give the date, in the order of precedence. -/
inductive DateTag
  | utcDate
  | date
  | eventDate
  deriving DecidableEq, Repr

namespace DateTag

def all : List DateTag := [utcDate, date, eventDate]

def key : DateTag → String
  | utcDate => "UTCDate"
  | date => "Date"
  | eventDate => "EventDate"

/-- The label under which the value is reported. -/
def label : DateTag → String
  | utcDate => "UTCDate"
  | date => "UTCDate (from Date)"
  | eventDate => "UTCDate (from EventDate)"

/-- The place in the order of precedence. -/
def precedence : DateTag → Nat
  | utcDate => 0
  | date => 1
  | eventDate => 2

theorem mem_all (t : DateTag) : t ∈ all := by cases t <;> simp [all]

theorem pairwise_all : all.Pairwise fun s t => s.precedence < t.precedence := by decide

end DateTag

namespace Headers

variable (h : Headers)

/-- How much the value of a tag says. -/
def completenessAt (t : DateTag) : Nat := ((h.get? t.key).map Date.completeness).getD 0

/-- The value of a tag says more than that of another, or as much with an earlier precedence. -/
def RanksBefore (s t : DateTag) : Prop :=
  h.completenessAt t < h.completenessAt s ∨
    h.completenessAt s = h.completenessAt t ∧ s.precedence < t.precedence

/-- The date that the value of a tag gives. -/
def dateAt? (t : DateTag) : Option Date :=
  (h.get? t.key).bind fun raw => (Date.ofHeader t.label.toList raw).value?

/-- What is said about the value of a tag if it fails. -/
def dateComplaintAt? (t : DateTag) : Option Text :=
  (h.get? t.key).bind fun raw => (Date.ofHeader t.label.toList raw).complaint?

/-- The tags whose values are not blank, the best first. -/
def ranked : List DateTag :=
  (DateTag.all.filter fun t => (h.get? t.key).any (!isBlankText ·)).mergeSort fun s t =>
    h.completenessAt t ≤ h.completenessAt s

variable {h} {s t : DateTag}

theorem RanksBefore.irrefl : ¬h.RanksBefore t t := by
  unfold RanksBefore
  omega

theorem RanksBefore.asymm (hst : h.RanksBefore s t) : ¬h.RanksBefore t s := by
  unfold RanksBefore at hst ⊢
  omega

theorem mem_ranked : t ∈ h.ranked ↔ ∃ raw, h.get? t.key = some raw ∧ isBlankText raw = false := by
  rw [ranked, List.mem_mergeSort, List.mem_filter, and_iff_right (DateTag.mem_all t)]
  cases h.get? t.key <;> simp

/-- **The tags are ranked** strictly. -/
theorem pairwise_ranked (h : Headers) : h.ranked.Pairwise h.RanksBefore := by
  have hsorted := pairwise_mergeSort_of_pairwise
    (fun s t => decide (h.completenessAt t ≤ h.completenessAt s))
    (by simp only [decide_eq_true_eq]; omega) (by simp only [Bool.or_eq_true, decide_eq_true_eq]; omega)
    (DateTag.pairwise_all.filter fun t => (h.get? t.key).any (!isBlankText ·))
  refine hsorted.imp fun hst => ?_
  simp only [decide_eq_false_iff_not, decide_eq_true_eq] at hst
  unfold RanksBefore
  omega

/-- The candidate that a tag makes. -/
def dateCandidate (h : Headers) (t : DateTag) : Text × Text :=
  (t.label.toList, (h.get? t.key).getD [])

theorem completeness_dateCandidate (h : Headers) (t : DateTag) :
    Date.completeness (h.dateCandidate t).2 = h.completenessAt t := by
  have hnil : Date.completeness [] = 0 := by decide
  unfold dateCandidate completenessAt
  cases h.get? t.key with
  | none => exact hnil
  | some raw => rfl

/-- **The candidates for the date** are the ranked tags. -/
theorem dateCandidates_eq (h : Headers) : h.dateCandidates = h.ranked.map h.dateCandidate := by
  have hpairs : [("UTCDate", "UTCDate"), ("Date", "UTCDate (from Date)"),
      ("EventDate", "UTCDate (from EventDate)")] = DateTag.all.map fun t => (t.key, t.label) := rfl
  unfold dateCandidates ranked
  rw [hpairs, List.filterMap_map]
  refine Eq.trans (congrArg (List.mergeSort · _) ?_) (List.map_mergeSort fun s _ t _ => ?_).symm
  · rw [← List.filterMap_eq_map, List.filterMap_filter]
    refine List.filterMap_congr fun t _ => ?_
    cases hraw : h.get? t.key with
    | none => simp [hraw]
    | some raw => cases hblank : isBlankText raw <;> simp [hblank, dateCandidate, hraw]
  · rw [h.completeness_dateCandidate, h.completeness_dateCandidate]

/-! ## The choice -/

/-- Notes that are what is said about the values of the tags with a property that fail, in the order
in which the tags are ranked. -/
def AreDateNotes (h : Headers) (P : DateTag → Prop) (notes : List Text) : Prop :=
  ∃ failed : List DateTag, failed.Pairwise h.RanksBefore ∧
    (∀ t, t ∈ failed ↔ P t ∧ (h.dateComplaintAt? t).isSome = true) ∧
    notes = failed.filterMap h.dateComplaintAt?

/-- The date that is chosen with notes on the values that failed. -/
structure ChoosesDate (h : Headers) (date : Option Date) (notes : List Text) : Prop where
  /-- A date is that of the best tag whose value is one; what failed before it is noted. -/
  best : ∀ d, date = some d → ∃ c, h.dateAt? c = some d ∧
    (∀ t, (h.dateAt? t).isSome = true → t ≠ c → h.RanksBefore c t) ∧
    h.AreDateNotes (h.RanksBefore · c) notes
  /-- Without a date no value is one, and all that failed is noted. -/
  nothing : date = none → (∀ t, h.dateAt? t = none) ∧ h.AreDateNotes (fun _ => True) notes

theorem value?_dateCandidate (h : Headers) (t : DateTag) :
    (Date.ofHeader (h.dateCandidate t).1 (h.dateCandidate t).2).value? = h.dateAt? t := by
  unfold dateAt? dateCandidate
  cases h.get? t.key with
  | none => exact congrArg Conversion.value? (Date.ofHeader_of_isBlankText _ rfl)
  | some raw => rfl

theorem complaint?_dateCandidate (h : Headers) (t : DateTag) :
    (Date.ofHeader (h.dateCandidate t).1 (h.dateCandidate t).2).complaint?
      = h.dateComplaintAt? t := by
  unfold dateComplaintAt? dateCandidate
  cases h.get? t.key with
  | none => exact congrArg Conversion.complaint? (Date.ofHeader_of_isBlankText _ rfl)
  | some raw => rfl

theorem dateComplaintAt?_of_dateAt? {d : Date} (ht : h.dateAt? t = some d) :
    h.dateComplaintAt? t = none := by
  rw [← value?_dateCandidate] at ht
  rw [← complaint?_dateCandidate, Conversion.complaint?_of_value? ht]

/-- A value that is a date or fails is not blank. -/
theorem mem_ranked_of_isSome
    (ht : (h.dateAt? t).isSome = true ∨ (h.dateComplaintAt? t).isSome = true) : t ∈ h.ranked := by
  unfold dateAt? dateComplaintAt? at ht
  cases hraw : h.get? t.key with
  | none => simp [hraw] at ht
  | some raw =>
    refine mem_ranked.2 ⟨raw, hraw, ?_⟩
    rw [← Bool.not_eq_true]
    intro hblank
    simp [hraw, Date.ofHeader_of_isBlankText _ hblank, Conversion.value?, Conversion.complaint?] at ht

/-- The notes on some of the candidates, in their order. -/
theorem areDateNotes_of_sublist {kept : List DateTag} {P : DateTag → Prop}
    (hkept : kept.Sublist h.ranked)
    (hmem : ∀ t, (h.dateComplaintAt? t).isSome = true → (t ∈ kept ↔ P t)) :
    h.AreDateNotes P (kept.filterMap h.dateComplaintAt?) := by
  refine ⟨kept.filter fun t => (h.dateComplaintAt? t).isSome,
    (h.pairwise_ranked.sublist hkept).filter _, fun t => ?_, ?_⟩
  · rw [List.mem_filter]
    exact and_congr_left fun hcomplaint => hmem t hcomplaint
  · rw [List.filterMap_filter]
    refine List.filterMap_congr fun t _ => ?_
    cases h.dateComplaintAt? t <;> simp

theorem firstValue?_dateCandidates (h : Headers) :
    firstValue? Date.ofHeader h.dateCandidates = h.ranked.findSome? h.dateAt? := by
  rw [firstValue?, dateCandidates_eq, List.findSome?_map]
  exact congrArg (List.findSome? · _) (funext h.value?_dateCandidate)

/-- What is said about candidates that are tried is what is said about their tags. -/
theorem notes_of_tried {cs : List (Text × Text)} {kept : List DateTag}
    (hkept : tried Date.ofHeader cs = kept.map h.dateCandidate) :
    (attemptsAt Date.ofHeader cs).filterMap Prod.snd = kept.filterMap h.dateComplaintAt? := by
  rw [attemptsAt, List.filterMap_map, hkept, List.filterMap_map]
  exact congrArg (List.filterMap · _) (funext h.complaint?_dateCandidate)

/-- Before a tag in the ranking stand those that rank before it. -/
theorem mem_before_iff {before after : List DateTag} {c : DateTag}
    (hranked : h.ranked = before ++ c :: after) (ht : t ∈ h.ranked) :
    (t ∈ before ↔ h.RanksBefore t c) ∧ (t ∉ before → t = c ∨ h.RanksBefore c t) := by
  have hpairwise := h.pairwise_ranked
  rw [hranked, List.pairwise_append, List.pairwise_cons] at hpairwise
  obtain ⟨_, ⟨hafter, _⟩, hfront⟩ := hpairwise
  have hplace : t ∈ before ∨ t = c ∨ h.RanksBefore c t := by
    rw [hranked, List.mem_append, List.mem_cons] at ht
    exact ht.imp id (Or.imp id (hafter t))
  refine ⟨⟨fun hmem => hfront t hmem c List.mem_cons_self, fun hbest => ?_⟩, hplace.resolve_left⟩
  rcases hplace with hmem | rfl | hbehind
  · exact hmem
  · exact absurd hbest RanksBefore.irrefl
  · exact absurd hbehind hbest.asymm

/-- **The best date is chosen**: that of the first candidate whose value is a date. -/
theorem choosesDate_of_convertFirst {n : Noted Date}
    (hn : convertFirst Date.ofHeader h.dateCandidates = .ok n) :
    h.ChoosesDate n.value n.notes := by
  obtain ⟨hvalue, hnotes⟩ := convertFirst_eq_ok hn
  rw [firstValue?_dateCandidates] at hvalue
  rw [dateCandidates_eq] at hnotes
  constructor
  case best =>
    intro d hd
    obtain ⟨before, c, after, hranked, hc, hbefore⟩ :=
      List.findSome?_eq_some_iff.1 (hvalue.symm.trans hd)
    have htried : tried Date.ofHeader (h.ranked.map h.dateCandidate)
        = (before ++ [c]).map h.dateCandidate := by
      rw [hranked, List.map_append, List.map_cons, List.map_append, List.map_singleton]
      refine tried_append (v := d) ?_ ((h.value?_dateCandidate c).trans hc)
      exact List.forall_mem_map.2 fun t ht => (h.value?_dateCandidate t).trans (hbefore t ht)
    rw [notes_of_tried htried, List.filterMap_append, List.filterMap_cons,
      dateComplaintAt?_of_dateAt? hc, List.filterMap_nil, List.append_nil] at hnotes
    refine ⟨c, hc, fun t ht hne => ?_, ?_⟩
    · have hnot : t ∉ before := fun hmem => by simp [hbefore t hmem] at ht
      have hmem := mem_ranked_of_isSome (Or.inl ht)
      exact ((mem_before_iff hranked hmem).2 hnot).resolve_left hne
    · rw [hnotes]
      refine areDateNotes_of_sublist (hranked ▸ List.sublist_append_left _ _) fun t ht => ?_
      exact (mem_before_iff hranked (mem_ranked_of_isSome (Or.inr ht))).1
  case nothing =>
    intro hnone
    have hall := List.findSome?_eq_none_iff.1 (hvalue.symm.trans hnone)
    have htried : tried Date.ofHeader (h.ranked.map h.dateCandidate)
        = h.ranked.map h.dateCandidate := by
      refine tried_of_forall ?_
      exact List.forall_mem_map.2 fun t ht => (h.value?_dateCandidate t).trans (hall t ht)
    rw [notes_of_tried htried] at hnotes
    refine ⟨fun t => ?_, ?_⟩
    · by_contra hdate
      exact hdate (hall t (mem_ranked_of_isSome (Or.inl (Option.isSome_iff_ne_none.2 hdate))))
    · rw [hnotes]
      refine areDateNotes_of_sublist (List.Sublist.refl _) fun t ht => ?_
      exact iff_of_true (mem_ranked_of_isSome (Or.inr ht)) trivial

/-- Dates without long runs of digits keep no game from having a record. -/
theorem isOversized_iff_of_short_dates (hdates : ∀ (t : DateTag) (raw : Text),
      h.get? t.key = some raw → ¬HasLongRun raw) :
    h.IsOversized ↔ ∃ key ∈ ["WhiteElo", "BlackElo"], ∃ raw,
      h.get? key = some raw ∧ (trim raw).IsOversized := by
  refine or_iff_left ?_
  rintro ⟨before, c, after, hsplit, _, hover⟩
  have hc : c ∈ h.dateCandidates := by simp [hsplit]
  rw [dateCandidates_eq] at hc
  obtain ⟨t, ht, rfl⟩ := List.mem_map.1 hc
  obtain ⟨raw, hraw, _⟩ := mem_ranked.1 ht
  have hvalue : (h.dateCandidate t).2 = raw := by rw [dateCandidate, hraw, Option.getD_some]
  rw [hvalue] at hover
  exact hdates t raw hraw (hasLongRun_of_isOversized_date hover)

/-- What is said about the ratings. -/
def ratingNotes (h : Headers) : List Text :=
  (attemptsAt readRating (h.ratingCandidates "WhiteElo")
    ++ attemptsAt readRating (h.ratingCandidates "BlackElo")).filterMap Prod.snd

/-- What is said about the times. -/
def timeNotes (h : Headers) : List Text :=
  (attemptsAt ClockTime.ofHeader h.timeCandidates).filterMap Prod.snd

end Headers

/-! ## Records -/

/-- The date of a record is chosen from its headers, and its error names the failed dates between
what is said about the ratings and the times. -/
def Record.HoldsBestDate (h : Headers) (diagnostic : Text) (r : Record) : Prop :=
  ∃ dateNotes, h.ChoosesDate r.utcDate dateNotes ∧
    let notes := (if diagnostic.isEmpty then [] else [diagnostic]) ++ h.ratingNotes ++ dateNotes
      ++ h.timeNotes
    r.parseError = if notes.isEmpty then none else some (join [';', ' '] notes)

theorem Record.holdsBestDate {h : Headers} {movetext : Text} {outcome : Option Text}
    {diagnostic : Text} {r : Record} (hr : Record.build h movetext outcome diagnostic = .ok r) :
    r.HoldsBestDate h diagnostic := by
  obtain ⟨white, black, date, time, hwhite, hblack, hdate, htime, rfl⟩ := Record.build_eq_ok.1 hr
  refine ⟨date.notes, Headers.choosesDate_of_convertFirst hdate, ?_⟩
  have hratings : h.ratingNotes = white.notes ++ black.notes := by
    rw [(convertFirst_eq_ok hwhite).2, (convertFirst_eq_ok hblack).2, Headers.ratingNotes,
      List.filterMap_append]
  rw [hratings, Headers.timeNotes, ← (convertFirst_eq_ok htime).2, ← List.append_assoc]
  rfl

/-- **The best date wins.** If the values that may give the date have no run of more than 4300
digits, there is a record unless a rating is oversized. Its date is that of the most complete value
that is a date, and of the earliest tag among equally complete ones; its error names those values
that failed and rank before, or all that failed if there is no date. The completeness of a date is one
more than the number of its known parts besides the year. -/
theorem Record.best_date_wins (h : Headers)
    (hdates : ∀ (t : DateTag) (raw : Text), h.get? t.key = some raw → ¬HasLongRun raw)
    (movetext : Text) (outcome : Option Text) (diagnostic : Text) :
    ((∃ r, Record.build h movetext outcome diagnostic = .ok r) ↔
      ∀ key ∈ ["WhiteElo", "BlackElo"], ∀ raw, h.get? key = some raw → ¬(trim raw).IsOversized) ∧
    (∀ r, Record.build h movetext outcome diagnostic = .ok r → r.HoldsBestDate h diagnostic) ∧
    ∀ (label raw : Text) (date : Date), Date.ofHeader label raw = .ok (some date) →
      ∃ year month day, Date.parts raw = [year, month, day] ∧
        Date.completeness raw = 1 + [month, day].countP fun part => !part.contains '?' := by
  refine ⟨?_, fun r hr => Record.holdsBestDate hr, fun _ _ _ => Date.completeness_of_ofHeader⟩
  rw [Record.exists_build_iff, Headers.isOversized_iff_of_short_dates hdates]
  simp only [not_exists, not_and]

/-- A date of a month that there is not is passed over. -/
theorem Record.best_date_wins_fallback :
    ∃ r, Record.build [⟨"UTCDate".toList, "2024.13.01".toList⟩, ⟨"Date".toList, "2023.01.02".toList⟩]
        [] none [] = .ok r ∧ r.utcDate = some ⟨2023, 1, 2⟩ := by
  let h : Headers :=
    [⟨"UTCDate".toList, "2024.13.01".toList⟩, ⟨"Date".toList, "2023.01.02".toList⟩]
  have hutcDate : h.dateAt? .utcDate = none := by decide
  have hdate : h.dateAt? .date = some ⟨2023, 1, 2⟩ := by decide
  have heventDate : h.dateAt? .eventDate = none := by decide
  have hshort : ∀ (t : DateTag) (raw : Text), h.get? t.key = some raw → ¬HasLongRun raw := by
    intro t raw hraw
    obtain ⟨tag, htag, rfl⟩ := h.exists_mem_of_get? hraw
    have hlength : ∀ tag ∈ h, tag.value.length ≤ maxDigits := by decide
    exact not_hasLongRun_of_length_le (hlength tag htag)
  have hratings : ∀ key ∈ ["WhiteElo", "BlackElo"], h.get? key = none := by decide
  obtain ⟨hbuild, hbest, _⟩ := Record.best_date_wins h hshort [] none []
  obtain ⟨r, hr⟩ := hbuild.2 fun key hkey raw hraw => by simp [hratings key hkey] at hraw
  obtain ⟨notes, hchosen, _⟩ := hbest r hr
  refine ⟨r, hr, ?_⟩
  cases hd : r.utcDate with
  | none =>
    rw [(hchosen.nothing hd).1 .date] at hdate
    simp at hdate
  | some d =>
    obtain ⟨c, hc, _⟩ := hchosen.best d hd
    cases c with
    | utcDate => simp [hutcDate] at hc
    | date => rw [← hc, hdate]
    | eventDate => simp [heventDate] at hc

end Scoresheet
