import Scoresheet.Proofs.Record.Existence

/-!
# Candidates for a column

The candidates for a column are tried one after another until one gives a value. What comes out is
the first value and the complaints about the candidates that were tried before it
(`convertFirst_eq_ok`); a candidate that failed might as well not be there
(`convertFirst_filter`).
-/

namespace Scoresheet

open Text Pgn

/-! ## Conversions that are tried -/

namespace Conversion

variable {α : Type}

/-- The value that a conversion gives. -/
def value? : Conversion α → Option α
  | .ok v => v
  | .error _ => none

/-- What is said about a header value that makes no sense. -/
def complaint? : Conversion α → Option Text
  | .error (.senseless e) => some e.message
  | _ => none

theorem isConversionError_of_complaint? {c : Conversion α} {note : Text}
    (h : c.complaint? = some note) : "Conversion error: ".toList <+: note := by
  unfold complaint? at h
  split at h
  · obtain rfl := Option.some.inj h
    unfold ConversionError.message
    simp only [List.append_assoc]
    exact List.prefix_append _ _
  · simp at h

/-- A conversion that gives a value has not failed. -/
theorem complaint?_of_value? {c : Conversion α} {v : α} (h : c.value? = some v) :
    c.complaint? = none := by
  cases c with
  | ok w => rfl
  | error e => simp [value?] at h

end Conversion

section Candidates

variable {α : Type} (conversion : Text → Text → Conversion α)

/-- The candidates that are tried: those up to the first that gives a value. -/
def tried : List (Text × Text) → List (Text × Text)
  | [] => []
  | c :: cs => c :: if (conversion c.1 c.2).value?.isSome then [] else tried cs

/-- The first value that a candidate gives. -/
def firstValue? (cs : List (Text × Text)) : Option α :=
  cs.findSome? fun c => (conversion c.1 c.2).value?

/-- The labels of the candidates that are tried, each with what is said if its value fails. -/
def attemptsAt (cs : List (Text × Text)) : List (Text × Option Text) :=
  (tried conversion cs).map fun c => (c.1, (conversion c.1 c.2).complaint?)

variable {conversion} {c : Text × Text} {cs : List (Text × Text)} {n : Noted α}

theorem convertFirst_cons_of_value? {v : α} (h : (conversion c.1 c.2).value? = some v) :
    convertFirst conversion (c :: cs) = .ok ⟨some v, []⟩ := by
  rw [convertFirst, convert]
  cases hc : conversion c.1 c.2 with
  | ok w =>
    obtain rfl : w = some v := by simpa [hc, Conversion.value?] using h
    rfl
  | error e => simp [hc, Conversion.value?] at h

/-- A candidate without a value adds its note to those of the candidates behind it. -/
theorem convertFirst_cons_of_value?_eq_none (h : (conversion c.1 c.2).value? = none) :
    convertFirst conversion (c :: cs) = .ok n ↔
      ¬Conversion.MeetsOversized (conversion c.1 c.2) ∧
        ∃ more, convertFirst conversion cs = .ok more ∧
          n = ⟨more.value, (conversion c.1 c.2).complaint?.toList ++ more.notes⟩ := by
  rw [convertFirst, convert, Conversion.MeetsOversized]
  rcases hc : conversion c.1 c.2 with (e | e) | w
  · cases convertFirst conversion cs <;>
      simp [bind, Except.bind, pure, Except.pure, Conversion.complaint?, eq_comm]
  · simp [bind, Except.bind]
  · obtain rfl : w = none := by simpa [hc, Conversion.value?] using h
    cases convertFirst conversion cs <;>
      simp [bind, Except.bind, pure, Except.pure, Conversion.complaint?, eq_comm]

/-- **The first value is taken**, and every candidate before it that fails leaves a note. -/
theorem convertFirst_eq_ok (h : convertFirst conversion cs = .ok n) :
    n.value = firstValue? conversion cs ∧
      n.notes = (attemptsAt conversion cs).filterMap Prod.snd := by
  induction cs generalizing n with
  | nil =>
    obtain rfl : ⟨none, []⟩ = n := by simpa [convertFirst] using h
    exact ⟨rfl, rfl⟩
  | cons c cs ih =>
    unfold firstValue? attemptsAt at ih ⊢
    rw [tried, List.findSome?_cons, List.map_cons]
    cases hv : (conversion c.1 c.2).value? with
    | some v =>
      rw [convertFirst_cons_of_value? hv, Except.ok.injEq] at h
      rw [← h, Conversion.complaint?_of_value? hv]
      exact ⟨rfl, rfl⟩
    | none =>
      obtain ⟨_, more, hmore, rfl⟩ := (convertFirst_cons_of_value?_eq_none hv).1 h
      obtain ⟨hvalue, hnotes⟩ := ih hmore
      refine ⟨hvalue, ?_⟩
      rw [hnotes]
      cases (conversion c.1 c.2).complaint? <;> simp

/-- **Without the candidates that failed** the value is the same and there are no notes. -/
theorem convertFirst_filter {p : Text × Text → Bool} (h : convertFirst conversion cs = .ok n)
    (hp : ∀ c ∈ tried conversion cs, p c = (conversion c.1 c.2).complaint?.isNone) :
    convertFirst conversion (cs.filter p) = .ok ⟨n.value, []⟩ := by
  induction cs generalizing n with
  | nil =>
    obtain rfl : ⟨none, []⟩ = n := by simpa [convertFirst] using h
    rfl
  | cons c cs ih =>
    rw [tried] at hp
    have hc := hp c List.mem_cons_self
    cases hv : (conversion c.1 c.2).value? with
    | some v =>
      rw [convertFirst_cons_of_value? hv, Except.ok.injEq] at h
      rw [Conversion.complaint?_of_value? hv] at hc
      rw [List.filter_cons_of_pos hc, convertFirst_cons_of_value? hv, ← h]
    | none =>
      obtain ⟨hreadable, more, hmore, rfl⟩ := (convertFirst_cons_of_value?_eq_none hv).1 h
      have hcs := ih hmore fun d hd => hp d (by simp [hv, hd])
      cases hnote : (conversion c.1 c.2).complaint? with
      | some note =>
        rw [hnote] at hc
        rw [List.filter_cons_of_neg (by simp [hc])]
        exact hcs
      | none =>
        rw [hnote] at hc
        rw [List.filter_cons_of_pos hc, convertFirst_cons_of_value?_eq_none hv, hnote]
        exact ⟨hreadable, _, hcs, rfl⟩

theorem tried_sublist : (tried conversion cs).Sublist cs := by
  induction cs with
  | nil => exact List.Sublist.refl _
  | cons c cs ih =>
    rw [tried]
    refine List.Sublist.cons_cons c ?_
    split
    · exact List.nil_sublist _
    · exact ih

/-- Without a value all candidates are tried. -/
theorem tried_of_forall (h : ∀ c ∈ cs, (conversion c.1 c.2).value? = none) :
    tried conversion cs = cs := by
  induction cs with
  | nil => rfl
  | cons c cs ih =>
    obtain ⟨hc, hcs⟩ := List.forall_mem_cons.1 h
    rw [tried, hc, Option.isSome_none, if_neg Bool.false_ne_true, ih hcs]

/-- The candidates are tried up to the first that gives a value. -/
theorem tried_append {before after : List (Text × Text)} {v : α}
    (hbefore : ∀ b ∈ before, (conversion b.1 b.2).value? = none)
    (hv : (conversion c.1 c.2).value? = some v) :
    tried conversion (before ++ c :: after) = before ++ [c] := by
  induction before with
  | nil => rw [List.nil_append, tried, hv, Option.isSome_some, if_pos rfl, List.nil_append]
  | cons b before ih =>
    obtain ⟨hb, hbefore⟩ := List.forall_mem_cons.1 hbefore
    rw [List.cons_append, tried, hb, Option.isSome_none, if_neg Bool.false_ne_true, ih hbefore,
      List.cons_append]

theorem map_fst_attemptsAt_sublist :
    ((attemptsAt conversion cs).map Prod.fst).Sublist (cs.map Prod.fst) := by
  rw [attemptsAt, List.map_map]
  exact tried_sublist.map _

end Candidates

/-! ## Records -/

/-- The value of a rating under its label, if there is such a tag. -/
def Headers.ratingCandidates (h : Headers) (key : String) : List (Text × Text) :=
  (h.get? key).toList.map fun raw => (key.toList, raw)

theorem convertTag_eq {α : Type} (conversion : Text → Text → Conversion α) (h : Headers)
    (key : String) :
    convertTag conversion h key = convertFirst conversion (h.ratingCandidates key) := rfl

/-- The record with the values of the converted columns and the notes on them. -/
def Record.ofConversions (h : Headers) (movetext : Text) (outcome : Option Text)
    (diagnostic : Text) (white black : Noted Nat) (date : Noted Date) (time : Noted ClockTime) :
    Record :=
  let notes := (if diagnostic.isEmpty then [] else [diagnostic])
    ++ white.notes ++ black.notes ++ date.notes ++ time.notes
  { event := h.get? "Event"
    site := h.get? "Site"
    white := h.get? "White"
    black := h.get? "Black"
    result := (h.get? "Result").or outcome
    whiteTitle := h.get? "WhiteTitle"
    blackTitle := h.get? "BlackTitle"
    whiteElo := white.value.map Int.ofNat
    blackElo := black.value.map Int.ofNat
    utcDate := date.value
    utcTime := time.value
    eco := h.get? "ECO"
    opening := h.get? "Opening"
    termination := h.get? "Termination"
    timeControl := h.get? "TimeControl"
    movetext
    parseError := if notes.isEmpty then none else some (join [';', ' '] notes)
    source := h.get? "Source"
    outcome }

/-- **A record is built** exactly if each column is converted. -/
theorem Record.build_eq_ok {h : Headers} {movetext : Text} {outcome : Option Text}
    {diagnostic : Text} {r : Record} :
    Record.build h movetext outcome diagnostic = .ok r ↔ ∃ white black date time,
      convertFirst readRating (h.ratingCandidates "WhiteElo") = .ok white ∧
      convertFirst readRating (h.ratingCandidates "BlackElo") = .ok black ∧
      convertFirst Date.ofHeader h.dateCandidates = .ok date ∧
      convertFirst ClockTime.ofHeader h.timeCandidates = .ok time ∧
      r = Record.ofConversions h movetext outcome diagnostic white black date time := by
  unfold Record.build
  rw [convertTag_eq, convertTag_eq]
  cases convertFirst readRating (h.ratingCandidates "WhiteElo") with
  | error n => simp [bind, Except.bind]
  | ok white =>
    cases convertFirst readRating (h.ratingCandidates "BlackElo") with
    | error n => simp [bind, Except.bind]
    | ok black =>
      cases convertFirst Date.ofHeader h.dateCandidates with
      | error n => simp [bind, Except.bind]
      | ok date =>
        cases convertFirst ClockTime.ofHeader h.timeCandidates with
        | error n => simp [bind, Except.bind]
        | ok time =>
          constructor
          · intro hr
            exact ⟨white, black, date, time, rfl, rfl, rfl, rfl, (Except.ok.inj hr).symm⟩
          · rintro ⟨_, _, _, _, ⟨⟩, ⟨⟩, ⟨⟩, ⟨⟩, rfl⟩
            rfl

end Scoresheet
