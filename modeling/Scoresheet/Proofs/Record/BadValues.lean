import Scoresheet.Proofs.Record.Candidates
import Scoresheet.Proofs.Record.GameFile
import Scoresheet.Proofs.Text.Joining
import Mathlib.Data.List.Nodup
import Mathlib.Data.List.Perm.Subperm

/-!
# What a bad header value costs

A header value that makes no sense leaves a complaint and nothing else: the record is the one that
the headers give without the tags that failed, with the complaints in the order in which they came
(`Assembly.bad_values_cost_columns`).

A rating or a date with a numeral of too many digits does more harm: the game then has no record.
-/

namespace Scoresheet

open Text Pgn

/-! ## Stable sorting -/

section Sorting

variable {α : Type} {le : α → α → Bool}

/-- A list that is cut where a property begins to hold is filtered into its two parts. -/
theorem filter_append_of_forall {p : α → Bool} {xs ys : List α} (hxs : ∀ x ∈ xs, (!p x) = true)
    (hys : ∀ y ∈ ys, p y = true) :
    (xs ++ ys).filter (!p ·) = xs ∧ (xs ++ ys).filter p = ys := by
  rw [List.filter_append, List.filter_append, List.filter_eq_self.2 hxs,
    List.filter_eq_self.2 hys, List.filter_eq_nil_iff.2 (by simpa using hys),
    List.filter_eq_nil_iff.2 (by simpa using hxs)]
  simp

/-- Nothing behind an element of a sorted list is less than it. -/
theorem le_of_mergeSort_eq_append (trans : ∀ a b c, le a b → le b c → le a c)
    (total : ∀ a b, (le a b || le b a) = true) {a : α} {l front back : List α}
    (h : l.mergeSort le = front ++ a :: back) : ∀ b ∈ back, le a b = true := by
  have hsorted := List.pairwise_mergeSort trans total l
  rw [h, List.pairwise_append] at hsorted
  exact (List.pairwise_cons.1 hsorted.2.1).1

/-- Sorting keeps the order of the elements that a filter lets through. -/
theorem filter_mergeSort (trans : ∀ a b c, le a b → le b c → le a c)
    (total : ∀ a b, (le a b || le b a) = true) (p : α → Bool) (l : List α) :
    (l.mergeSort le).filter p = (l.filter p).mergeSort le := by
  induction l with
  | nil => simp
  | cons a l ih =>
    obtain ⟨l₁, l₂, hsort, hl, hbefore⟩ := List.mergeSort_cons trans total a l
    have hbehind := le_of_mergeSort_eq_append trans total hsort
    rw [hsort]
    rw [hl, List.filter_append] at ih
    cases ha : p a with
    | false =>
      rw [List.filter_cons_of_neg (by simp [ha]), ← ih]
      simp [ha]
    | true =>
      obtain ⟨m₁, m₂, hsort', hm, hbefore'⟩ := List.mergeSort_cons trans total a (l.filter p)
      have hbehind' := le_of_mergeSort_eq_append trans total hsort'
      rw [List.filter_cons_of_pos ha, hsort']
      rw [hm] at ih
      -- both lists are cut where the elements stop to be less than the new one
      obtain ⟨hfront, hback⟩ := filter_append_of_forall
        (fun b hb => hbefore b (List.mem_filter.1 hb).1)
        (fun b hb => hbehind b (List.mem_filter.1 hb).1)
      obtain ⟨hfront', hback'⟩ := filter_append_of_forall hbefore' hbehind'
      rw [ih] at hfront hback
      rw [List.filter_append, List.filter_cons_of_pos ha, ← hfront, ← hback, hfront', hback']

end Sorting

/-! ## Tags that failed -/

namespace Headers

/-- The tags whose values are converted, each with the label under which its value is reported. -/
def labels : List (String × String) :=
  [("WhiteElo", "WhiteElo"), ("BlackElo", "BlackElo"), ("UTCDate", "UTCDate"),
    ("Date", "UTCDate (from Date)"), ("EventDate", "UTCDate (from EventDate)"),
    ("UTCTime", "UTCTime"), ("Time", "UTCTime (from Time)")]

/-- The tags whose values are kept as they are. -/
def plainTags : List String :=
  ["Event", "Site", "White", "Black", "Result", "WhiteTitle", "BlackTitle", "ECO", "Opening",
    "Termination", "TimeControl", "Source"]

/-- The conversions that are tried for a record, in their order. -/
def attempts (h : Headers) : List (Text × Option Text) :=
  attemptsAt readRating (h.ratingCandidates "WhiteElo")
    ++ attemptsAt readRating (h.ratingCandidates "BlackElo")
    ++ attemptsAt Date.ofHeader h.dateCandidates ++ attemptsAt ClockTime.ofHeader h.timeCandidates

/-- What is said about the values that failed. -/
def complaints (h : Headers) : List Text := h.attempts.filterMap Prod.snd

/-- The value that is reported under a label was tried and failed. -/
def failedAt (h : Headers) (label : Text) : Bool :=
  h.attempts.any fun attempt => attempt.1 == label && attempt.2.isSome

/-- The value of a tag was tried and failed. -/
def hasFailed (h : Headers) (key : Text) : Bool :=
  labels.any fun l => l.1.toList == key && h.failedAt l.2.toList

/-- The headers without the tags that failed. -/
def withoutFailed (h : Headers) : Headers := h.filter fun tag => !h.hasFailed tag.key

variable (h : Headers)

theorem hasFailed_of_mem {key label : String} (hl : (key, label) ∈ labels) :
    h.hasFailed key.toList = h.failedAt label.toList := by
  simp only [labels, List.mem_cons, Prod.mk.injEq, List.not_mem_nil, or_false] at hl
  rcases hl with ⟨rfl, rfl⟩ | ⟨rfl, rfl⟩ | ⟨rfl, rfl⟩ | ⟨rfl, rfl⟩ | ⟨rfl, rfl⟩ | ⟨rfl, rfl⟩ |
    ⟨rfl, rfl⟩ <;> simp [hasFailed, labels]

theorem hasFailed_of_not_mem {key : Text} (hl : ∀ l ∈ labels, l.1.toList ≠ key) :
    h.hasFailed key = false := by
  rw [hasFailed, List.any_eq_false]
  intro l hmem
  simp [hl l hmem]

theorem get?_withoutFailed (key : String) :
    h.withoutFailed.get? key = if h.hasFailed key.toList then none else h.get? key := by
  have hsame : ∀ tag : Tag, (tag.key == key.toList) = true →
      h.hasFailed tag.key = h.hasFailed key.toList := fun tag htag => by rw [eq_of_beq htag]
  rw [get?, get?, value?, value?, withoutFailed, List.find?_filter]
  cases hfailed : h.hasFailed key.toList with
  | true =>
    rw [if_pos rfl, List.find?_eq_none.2, Option.map_none]
    intro tag _ htag
    simp only [Bool.not_eq_true', decide_eq_true_eq] at htag
    rw [hsame tag htag.2, hfailed] at htag
    exact Bool.noConfusion htag.1
  | false =>
    rw [if_neg (by simp)]
    congr 2
    funext tag
    cases htag : tag.key == key.toList with
    | true => simp [hsame tag htag, hfailed]
    | false => simp

/-- A tag that is not converted stays. -/
theorem get?_withoutFailed_of_mem_plainTags :
    ∀ key ∈ plainTags, h.withoutFailed.get? key = h.get? key := by
  intro key hkey
  have hplain : ∀ key ∈ plainTags, ∀ l ∈ labels, l.1.toList ≠ key.toList := by decide
  rw [get?_withoutFailed, hasFailed_of_not_mem h (hplain key hkey), if_neg (by simp)]

/-- A tag that is converted goes if it failed. -/
theorem get?_withoutFailed_of_mem {key label : String} (hl : (key, label) ∈ labels) :
    h.withoutFailed.get? key = if h.failedAt label.toList then none else h.get? key := by
  rw [get?_withoutFailed, hasFailed_of_mem h hl]

/-! ### Candidates that stay -/

theorem ratingCandidates_withoutFailed {key : String} (hl : (key, key) ∈ labels) :
    h.withoutFailed.ratingCandidates key
      = (h.ratingCandidates key).filter fun c => !h.failedAt c.1 := by
  rw [ratingCandidates, ratingCandidates, get?_withoutFailed_of_mem h hl]
  cases h.get? key with
  | none => simp
  | some raw => cases hf : h.failedAt key.toList <;> simp [hf]

theorem dateCandidates_withoutFailed :
    h.withoutFailed.dateCandidates = h.dateCandidates.filter fun c => !h.failedAt c.1 := by
  unfold dateCandidates
  rw [filter_mergeSort, List.filter_filterMap]
  · refine congrArg (fun cs => List.mergeSort cs _) (List.filterMap_congr ?_)
    rintro ⟨key, label⟩ hmem
    have hl : (key, label) ∈ labels :=
      List.mem_of_mem_drop (i := 2) (List.mem_of_mem_take (i := 3) hmem)
    simp only [get?_withoutFailed_of_mem h hl]
    cases h.get? key with
    | none => simp
    | some raw =>
      cases hf : h.failedAt label.toList <;> cases hb : isBlankText raw <;>
        simp [Option.filter, hf, hb]
  · simp only [decide_eq_true_eq]
    omega
  · simp only [Bool.or_eq_true, decide_eq_true_eq]
    omega

theorem timeCandidates_withoutFailed :
    h.withoutFailed.timeCandidates = h.timeCandidates.filter fun c => !h.failedAt c.1 := by
  unfold timeCandidates
  rw [List.filter_filterMap]
  refine List.filterMap_congr ?_
  rintro ⟨key, label⟩ hmem
  have hl : (key, label) ∈ labels := List.mem_of_mem_drop (i := 5) hmem
  simp only [get?_withoutFailed_of_mem h hl]
  cases h.get? key with
  | none => simp
  | some raw => cases hf : h.failedAt label.toList <;> simp [Option.filter, hf]

/-! ### Attempts with their labels -/

/-- Labels that are kept with some of their values are some of the labels, in the same order. -/
theorem labels_filterMap_sublist {f : String × String → Option (Text × Text)}
    (hf : ∀ l c, f l = some c → c.1 = l.2.toList) (ls : List (String × String)) :
    ((ls.filterMap f).map Prod.fst).Sublist (ls.map fun l => l.2.toList) := by
  induction ls with
  | nil => exact List.Sublist.refl _
  | cons l ls ih =>
    rw [List.filterMap_cons]
    cases hl : f l with
    | none => exact ih.cons _
    | some c =>
      rw [List.map_cons, List.map_cons, hf l c hl]
      exact ih.cons_cons _

theorem labels_ratingCandidates_sublist (key : String) :
    ((h.ratingCandidates key).map Prod.fst).Sublist [key.toList] := by
  rw [ratingCandidates]
  cases h.get? key <;> simp

theorem labels_dateCandidates_subperm :
    (h.dateCandidates.map Prod.fst).Subperm
      (((labels.drop 2).take 3).map fun l => l.2.toList) := by
  refine ((List.mergeSort_perm _ _).map Prod.fst).subperm.trans
    (labels_filterMap_sublist ?_ _).subperm
  rintro ⟨key, label⟩ c hc
  dsimp only at hc
  cases hraw : h.get? key with
  | none => simp [hraw] at hc
  | some raw =>
    simp only [hraw] at hc
    split at hc
    · simp at hc
    · rw [← Option.some.inj hc]

theorem labels_timeCandidates_sublist :
    (h.timeCandidates.map Prod.fst).Sublist ((labels.drop 5).map fun l => l.2.toList) := by
  refine labels_filterMap_sublist ?_ _
  rintro ⟨key, label⟩ c hc
  obtain ⟨raw, _, hraw⟩ := Option.map_eq_some_iff.1 hc
  rw [← hraw]

/-- **No label is tried twice.** -/
theorem nodup_labels_attempts : (h.attempts.map Prod.fst).Nodup := by
  have hsub : (h.attempts.map Prod.fst).Subperm (labels.map fun l => l.2.toList) := by
    simp only [attempts, List.map_append]
    exact (((map_fst_attemptsAt_sublist.trans (h.labels_ratingCandidates_sublist _)).subperm.append
      (map_fst_attemptsAt_sublist.trans (h.labels_ratingCandidates_sublist _)).subperm).append
      (map_fst_attemptsAt_sublist.subperm.trans h.labels_dateCandidates_subperm)).append
      (map_fst_attemptsAt_sublist.trans h.labels_timeCandidates_sublist).subperm
  obtain ⟨ls, hperm, hls⟩ := hsub
  have hnodup : (labels.map fun l => l.2.toList).Nodup := by decide
  exact hperm.nodup_iff.1 (hnodup.sublist hls)

/-- A label that was tried has failed exactly if there is a complaint about its value. -/
theorem failedAt_of_mem {label : Text} {complaint? : Option Text}
    (ha : (label, complaint?) ∈ h.attempts) : h.failedAt label = complaint?.isSome := by
  cases hc : complaint? with
  | some note =>
    exact List.any_eq_true.2 ⟨_, ha, by simp [hc]⟩
  | none =>
    rw [failedAt, Option.isSome_none, List.any_eq_false]
    rintro ⟨label', complaint'⟩ ha' hboth
    obtain ⟨rfl, hsome⟩ : label' = label ∧ complaint'.isSome = true := by simpa using hboth
    obtain rfl : complaint' = complaint? :=
      congrArg Prod.snd (List.inj_on_of_nodup_map h.nodup_labels_attempts ha' ha rfl)
    rw [hc] at hsome
    exact Bool.noConfusion hsome

/-- **Without the tags that failed** a column has the same value and no complaints. -/
theorem convertFirst_withoutFailed {α : Type} {conversion : Text → Text → Conversion α}
    {cs : List (Text × Text)} {n : Noted α} (hcs : convertFirst conversion cs = .ok n)
    (hattempts : ∀ a ∈ attemptsAt conversion cs, a ∈ h.attempts) :
    convertFirst conversion (cs.filter fun c => !h.failedAt c.1) = .ok ⟨n.value, []⟩ := by
  refine convertFirst_filter hcs fun c hc => ?_
  rw [h.failedAt_of_mem (hattempts _ (List.mem_map.2 ⟨c, hc, rfl⟩))]
  cases (conversion c.1 c.2).complaint? <;> rfl

end Headers

/-! ## The record of good and bad values -/

namespace Headers

/-- What the record says that went wrong: a diagnostic on the game as a whole, then the values that
failed. -/
def notes (h : Headers) (diagnostic : Text) : List Text :=
  (if diagnostic.isEmpty then [] else [diagnostic]) ++ h.complaints

theorem notes_eq_nil {h : Headers} {diagnostic : Text} :
    h.notes diagnostic = [] ↔ diagnostic = [] ∧ h.complaints = [] := by
  cases diagnostic <;> simp [notes]

/-- Every complaint is about a conversion. -/
theorem isConversionError_of_mem_complaints {h : Headers} {note : Text}
    (hnote : note ∈ h.complaints) : "Conversion error: ".toList <+: note := by
  obtain ⟨attempt, ha, hattempt⟩ := List.mem_filterMap.1 hnote
  simp only [attempts, attemptsAt, List.mem_append, List.mem_map] at ha
  rcases ha with ((⟨c, _, rfl⟩ | ⟨c, _, rfl⟩) | ⟨c, _, rfl⟩) | ⟨c, _, rfl⟩ <;>
    exact Conversion.isConversionError_of_complaint? hattempt

end Headers

/-- The record `r` is what the headers give, with a movetext, the marker of its result and a
diagnostic on the game as a whole: bad values cost no more than their columns. -/
structure Record.HoldsGoodValues (h : Headers) (movetext : Text) (outcome : Option Text)
    (diagnostic : Text) (r : Record) : Prop where
  whiteElo : r.whiteElo
    = (firstValue? readRating (h.ratingCandidates "WhiteElo")).map Int.ofNat
  blackElo : r.blackElo
    = (firstValue? readRating (h.ratingCandidates "BlackElo")).map Int.ofNat
  utcDate : r.utcDate = firstValue? Date.ofHeader h.dateCandidates
  utcTime : r.utcTime = firstValue? ClockTime.ofHeader h.timeCandidates
  parseError : r.parseError = if (h.notes diagnostic).isEmpty then none else
    some (join [';', ' '] (h.notes diagnostic))
  parseError_eq_none : r.parseError = none ↔ diagnostic = [] ∧ h.complaints = []
  isConversionError : ∀ note ∈ h.complaints, "Conversion error: ".toList <+: note
  /-- Without the tags that failed, only what is said about them is missing. -/
  withoutFailed : Record.build h.withoutFailed movetext outcome diagnostic
    = .ok { r with parseError := if diagnostic.isEmpty then none else some diagnostic }

section Build

variable {h : Headers} {movetext : Text} {outcome : Option Text} {diagnostic : Text} {r : Record}

/-- A record that is built says all that went wrong. -/
theorem Record.parseError_of_build (hr : Record.build h movetext outcome diagnostic = .ok r) :
    r.parseError = if (h.notes diagnostic).isEmpty then none else
      some (join [';', ' '] (h.notes diagnostic)) := by
  obtain ⟨white, black, date, time, hwhite, hblack, hdate, htime, rfl⟩ := Record.build_eq_ok.1 hr
  have hnotes : (if diagnostic.isEmpty then [] else [diagnostic]) ++ white.notes ++ black.notes
      ++ date.notes ++ time.notes = h.notes diagnostic := by
    rw [(convertFirst_eq_ok hwhite).2, (convertFirst_eq_ok hblack).2, (convertFirst_eq_ok hdate).2,
      (convertFirst_eq_ok htime).2, Headers.notes, Headers.complaints, Headers.attempts,
      List.filterMap_append, List.filterMap_append, List.filterMap_append]
    simp only [List.append_assoc]
  rw [← hnotes]
  rfl

/-- **The tags that failed might as well not be there**, but for what is said about them. -/
theorem Record.build_withoutFailed (hr : Record.build h movetext outcome diagnostic = .ok r) :
    Record.build h.withoutFailed movetext outcome diagnostic
      = .ok { r with parseError := if diagnostic.isEmpty then none else some diagnostic } := by
  obtain ⟨white, black, date, time, hwhite, hblack, hdate, htime, rfl⟩ := Record.build_eq_ok.1 hr
  refine Record.build_eq_ok.2 ⟨⟨white.value, []⟩, ⟨black.value, []⟩, ⟨date.value, []⟩,
    ⟨time.value, []⟩, ?_, ?_, ?_, ?_, ?_⟩
  · rw [h.ratingCandidates_withoutFailed (by decide)]
    exact h.convertFirst_withoutFailed hwhite fun a ha => by simp [Headers.attempts, ha]
  · rw [h.ratingCandidates_withoutFailed (by decide)]
    exact h.convertFirst_withoutFailed hblack fun a ha => by simp [Headers.attempts, ha]
  · rw [h.dateCandidates_withoutFailed]
    exact h.convertFirst_withoutFailed hdate fun a ha => by simp [Headers.attempts, ha]
  · rw [h.timeCandidates_withoutFailed]
    exact h.convertFirst_withoutFailed htime fun a ha => by simp [Headers.attempts, ha]
  · have hkept := h.get?_withoutFailed_of_mem_plainTags
    simp only [Headers.plainTags, List.forall_mem_cons] at hkept
    simp only [Record.ofConversions, hkept]
    cases diagnostic <;> simp

/-- **A record that is built holds the good values.** -/
theorem Record.holdsGoodValues (hr : Record.build h movetext outcome diagnostic = .ok r) :
    r.HoldsGoodValues h movetext outcome diagnostic := by
  have hparseError := Record.parseError_of_build hr
  have hwithoutFailed := Record.build_withoutFailed hr
  obtain ⟨white, black, date, time, hwhite, hblack, hdate, htime, rfl⟩ := Record.build_eq_ok.1 hr
  constructor
  case whiteElo => exact congrArg (Option.map Int.ofNat) (convertFirst_eq_ok hwhite).1
  case blackElo => exact congrArg (Option.map Int.ofNat) (convertFirst_eq_ok hblack).1
  case utcDate => exact (convertFirst_eq_ok hdate).1
  case utcTime => exact (convertFirst_eq_ok htime).1
  case parseError => exact hparseError
  case parseError_eq_none =>
    rw [hparseError, ← Headers.notes_eq_nil]
    cases h.notes diagnostic <;> simp
  case isConversionError => exact fun _ => Headers.isConversionError_of_mem_complaints
  case withoutFailed => exact hwithoutFailed

end Build

/-! ## The end of a game -/

namespace Assembly

variable (a : Assembly) (diagnostic : Text)

/-- What finishing a game leaves behind. -/
structure Finished (a : Assembly) (diagnostic : Text) (b : Assembly) : Prop where
  phase : b.phase = .idle
  record : ∃ r, b.record = some r ∧ r.HoldsGoodValues a.headers a.movetext a.outcome diagnostic

theorem finish_eq_ok {b : Assembly} (hb : a.finish diagnostic = .ok b) :
    a.Finished diagnostic b := by
  unfold finish build at hb
  cases hr : Record.build a.headers a.movetext a.outcome diagnostic with
  | error n => simp [hr, Except.map] at hb
  | ok r =>
    rw [hr] at hb
    obtain rfl := Except.ok.inj hb
    exact ⟨rfl, r, rfl, Record.holdsGoodValues hr⟩

theorem exists_finish_iff :
    (∃ b, a.finish diagnostic = .ok b) ↔ ¬a.headers.IsOversized := by
  rw [← Record.exists_build_iff a.headers a.movetext a.outcome diagnostic, finish, build]
  cases Record.build a.headers a.movetext a.outcome diagnostic <;> simp [Except.map]

/-- **A bad value costs no more than its column.** Whatever was heard, the end of the game and a
diagnostic that cuts it short give a record unless a header is oversized. The record holds the
first good value of each converted column, its error names all that went wrong, and it is the
record without the tags that failed in every other respect. -/
theorem bad_values_cost_columns :
    ((∃ b, a.hear .endGame = .ok b) ↔ ¬a.headers.IsOversized) ∧
    ((∃ b, a.finalizePartial diagnostic = .ok b) ↔ ¬a.headers.IsOversized) ∧
    (∀ b, a.hear .endGame = .ok b → a.Finished [] b) ∧
    ∀ b, a.finalizePartial diagnostic = .ok b → a.Finished diagnostic b :=
  ⟨a.exists_finish_iff [], a.finalizing.exists_finish_iff diagnostic, fun _ => a.finish_eq_ok [],
    fun _ hb => have h := a.finalizing.finish_eq_ok diagnostic hb
      ⟨h.phase, h.record⟩⟩

/-- A rating with one digit too many leaves the game without a record. -/
theorem no_record_of_long_rating :
    ¬∃ b, start.hearAll [.beginTags, .tag "WhiteElo".toList (List.replicate 4301 '1'),
      .beginMovetext, .endGame] = .ok b := by
  -- the events lead to an assembly with the one header, whatever its value is
  have hheard : ∀ raw : Text, start.hearAll [.beginTags, .tag "WhiteElo".toList raw,
      .beginMovetext, .endGame]
        = Assembly.hearAll ⟨.collectingMoves, none, [⟨"WhiteElo".toList, raw⟩], [], 0, none⟩
            [.endGame] := fun _ => rfl
  have hlong : Headers.IsOversized [⟨"WhiteElo".toList, List.replicate 4301 '1'⟩] := by
    rw [← headers_ratedGame, isOversized_ratedGame]
    decide
  rw [hheard, hearAll_endGame, exists_finish_iff]
  exact not_not.2 hlong

end Assembly

end Scoresheet
