import Scoresheet.Proofs.Mainline.Analyses
import Scoresheet.Proofs.Pgn.Hearing
import Scoresheet.Proofs.Pgn.TranscriptShape

/-!
# Analyses that follow the reading

The analyses of a movetext read its game first and look at the main line afterwards. Here four
listeners follow the reading itself: one gathers the moves and the result, one counts the moves, one
keeps the fingerprint of the position and one lists the moves made. The last two stop where a move
cannot be made, and the last one stops at a limit as well; a listener that has stopped does not hear
of a malformed place behind. All four come to what the analyses compute (`hashed_eq` and the
theorems around it).
-/

namespace Scoresheet

open Text Pgn Chess

variable {σ : Type}

/-! ## Following a movetext -/

/-- What a listener makes of the first game of a movetext, and whether it was told that the game is
malformed. -/
def follow (l : Listener σ) (s : σ) (m : Text) : Except OversizedNumeral (σ × Bool) :=
  match hearGame l s (lines m) with
  | none => .ok (s, false)
  | some h => match h.error with
    | none => .ok (h.hearing.state, false)
    | some (.malformed _) => .ok (h.hearing.state, true)
    | some (.oversizedNag n) => .error n

/-- Following a movetext is running through the events of its first game. -/
theorem follow_eq (l : Listener σ) (s : σ) (m : Text) :
    follow l s m = (Transcript.first m).checked.map fun t =>
      ((l.run s t.events).1, t.isMalformed && (l.run s t.events).2 == .goOn) := by
  unfold follow Transcript.first
  rw [hearGame_eq]
  cases readGame (lines m) with
  | none => rfl
  | some r =>
    obtain ⟨t, rest⟩ := r
    simp only [Option.map_some, Option.getD_some, Listener.tellAll_start, Transcript.playTo_snd]
    unfold Transcript.checked Transcript.isMalformed
    cases hrun : (l.run s t.events).2 with
    | goOn => rcases he : t.error with _ | fault | n <;> simp [Except.map, hrun, he]
    | stop => rcases he : t.error with _ | fault | n <;> simp [Except.map, hrun, he]

/-- The events of the first game of a text, if it has one: a first event and others behind it. -/
theorem events_first (m : Text) : (Transcript.first m).events = [] ∨
    ∃ more, (Transcript.first m).events = .beginTags :: more ∧ ∀ e ∈ more, e ≠ .beginTags := by
  rcases first_eq_empty_or_mem m with hempty | hmem
  · left
    rw [hempty]
    rfl
  · exact Or.inr (isFramed_of_mem_readGames hmem).exists_cons

/-! ## Listeners that heed moves -/

namespace Pgn.Listener

/-- Between the start of a game and its end a listener heeds nothing but moves. -/
def HeedsMoves (l : Listener σ) : Prop :=
  ∀ s e, e ≠ .beginTags → Transcript.san? e = none → l.hear s e = (s, .goOn)

variable {l : Listener σ} {s : σ}

/-- The moves that a listener is told. -/
def runMoves (l : Listener σ) (s : σ) (sans : List Text) : σ × Flow := l.run s (sans.map .san)

theorem runMoves_cons (l : Listener σ) (s : σ) (san : Text) (sans : List Text) :
    l.runMoves s (san :: sans) = match l.hear s (.san san) with
      | (s, .goOn) => l.runMoves s sans
      | (s, .stop) => (s, .stop) := rfl

theorem HeedsMoves.run_eq (hl : l.HeedsMoves) {events : List Event}
    (h : ∀ e ∈ events, e ≠ .beginTags) :
    l.run s events = l.runMoves s (events.filterMap Transcript.san?) := by
  induction events generalizing s with
  | nil => rfl
  | cons e events ih =>
    obtain ⟨he, hevents⟩ := List.forall_mem_cons.1 h
    cases hsan : Transcript.san? e with
    | none =>
      rw [run, hl s e he hsan, List.filterMap_cons_none hsan]
      exact ih hevents
    | some san =>
      have hmove : e = .san san := by
        cases e with
        | san token => exact congrArg Event.san (Option.some.inj hsan)
        | _ => simp [Transcript.san?] at hsan
      rw [List.filterMap_cons_some hsan, runMoves_cons, hmove, run]
      rcases l.hear s (.san san) with ⟨s', _ | _⟩
      · exact ih hevents
      · rfl

/-- A listener that is at the start runs through a game as through its moves. -/
theorem HeedsMoves.run_first (hl : l.HeedsMoves) (hs : l.hear s .beginTags = (s, .goOn))
    (m : Text) :
    l.run s (Transcript.first m).events = l.runMoves s (Transcript.first m).sans := by
  rw [Transcript.sans]
  rcases events_first m with hnil | ⟨more, hmore, hreset⟩
  · rw [hnil]
    rfl
  · rw [hmore, run, hs, List.filterMap_cons_none rfl]
    exact hl.run_eq hreset

end Pgn.Listener

/-- What a listener that heeds moves makes of a movetext. -/
theorem follow_of_heedsMoves {l : Listener σ} (hl : l.HeedsMoves) {s : σ}
    (hs : l.hear s .beginTags = (s, .goOn)) (m : Text) :
    follow l s m = (Transcript.first m).checked.map fun t =>
      ((l.runMoves s t.sans).1, t.isMalformed && (l.runMoves s t.sans).2 == .goOn) := by
  rw [follow_eq]
  unfold Transcript.checked
  split
  · rfl
  · simp only [Except.map, hl.run_first hs]

/-! ## Gathering the main line -/

/-- The moves and the result that have been gathered. -/
structure Gathered where
  sans : List Text
  outcome : Option Text

def gatherer : Listener Gathered where
  hear g
    | .beginTags => (⟨[], none⟩, .goOn)
    | .san token => ({ g with sans := g.sans ++ [token] }, .goOn)
    | .outcome marker => ({ g with outcome := some marker }, .goOn)
    | _ => (g, .goOn)

theorem run_gatherer {events : List Event} (h : ∀ e ∈ events, e ≠ .beginTags) (g : Gathered) :
    gatherer.run g events = (⟨g.sans ++ events.filterMap Transcript.san?,
      (events.filterMap Transcript.outcome?).getLast?.or g.outcome⟩, .goOn) := by
  induction events generalizing g with
  | nil => simp [Listener.run]
  | cons e events ih =>
    obtain ⟨he, hevents⟩ := List.forall_mem_cons.1 h
    cases e with
    | beginTags => exact absurd rfl he
    | san token =>
      have hrun := ih hevents { g with sans := g.sans ++ [token] }
      rw [List.append_assoc] at hrun
      exact hrun
    | outcome marker =>
      have hrun := ih hevents { g with outcome := some marker }
      have hsome : Transcript.outcome? (.outcome marker) = some marker := rfl
      rw [List.filterMap_cons_none rfl, List.filterMap_cons_some hsome, List.getLast?_cons]
      show gatherer.run _ events = _
      rw [hrun]
      cases (events.filterMap Transcript.outcome?).getLast? <;> rfl
    | _ => exact ih hevents g

/-- The main line of a movetext, gathered while it is read. -/
def gathered (m : Text) : Except OversizedNumeral Mainline :=
  if isBlankText m then .ok ⟨[], none, false⟩
  else (follow gatherer ⟨[], none⟩ m).map fun (g, failed) => ⟨g.sans, g.outcome, failed⟩

theorem gathered_eq (m : Text) : gathered m = Mainline.ofMovetext m := by
  unfold gathered
  by_cases hb : isBlankText m = true
  · rw [if_pos hb, ofMovetext_of_isBlankText hb]
  · rw [if_neg hb, follow_eq, Mainline.ofMovetext]
    have hrun : gatherer.run ⟨[], none⟩ (Transcript.first m).events
        = (⟨(Transcript.first m).sans, (Transcript.first m).outcome⟩, .goOn) := by
      unfold Transcript.sans Transcript.outcome
      rcases events_first m with hnil | ⟨more, hmore, hreset⟩
      · rw [hnil]
        rfl
      · rw [hmore]
        show gatherer.run ⟨[], none⟩ more = _
        rw [run_gatherer hreset]
        simp [Transcript.san?, Transcript.outcome?, List.filterMap_cons]
    unfold Transcript.checked
    split
    · rfl
    · simp [Except.map, hrun, Mainline.ofTranscript]

/-! ## Counting moves -/

def counter : Listener Nat where
  hear n
    | .beginTags => (0, .goOn)
    | .san _ => (n + 1, .goOn)
    | _ => (n, .goOn)

theorem heedsMoves_counter : counter.HeedsMoves := by
  intro n e he hsan
  cases e with
  | beginTags => exact absurd rfl he
  | san token => simp [Transcript.san?] at hsan
  | _ => rfl

theorem runMoves_counter (sans : List Text) (n : Nat) :
    counter.runMoves n sans = (n + sans.length, .goOn) := by
  induction sans generalizing n with
  | nil => rfl
  | cons san sans ih =>
    have hhear : counter.hear n (.san san) = (n + 1, .goOn) := rfl
    have hcount : n + 1 + sans.length = n + (sans.length + 1) := by omega
    rw [Listener.runMoves_cons, hhear]
    show counter.runMoves (n + 1) sans = _
    rw [ih, List.length_cons, hcount]

/-- The number of moves of a movetext, counted while it is read. -/
def counted (m : Text) : Except OversizedNumeral Nat :=
  if isBlankText m then .ok 0
  else (follow counter 0 m).map fun (n, failed) => if failed then 0 else n

theorem counted_eq (m : Text) : counted m = plyCount m := by
  unfold counted plyCount
  by_cases hb : isBlankText m = true
  · rw [if_pos hb, ofMovetext_of_isBlankText hb]
    rfl
  · rw [if_neg hb, follow_of_heedsMoves heedsMoves_counter rfl, Mainline.ofMovetext]
    cases (Transcript.first m).checked with
    | error n => rfl
    | ok t =>
      simp only [Except.map, runMoves_counter, Nat.zero_add, Mainline.plyCount,
        Mainline.ofTranscript]
      cases t.isMalformed <;> rfl

/-! ## Fingerprints -/

/-- A position with its fingerprint. -/
structure Fingerprinted where
  position : Position
  hash : UInt64

/-- The fingerprint of a position. -/
def fingerprint (p : Position) : Fingerprinted := ⟨p, p.hash⟩

def hasher : Listener Fingerprinted where
  hear s
    | .beginTags => (fingerprint .initial, .goOn)
    | .san token => match makeMove s.position token with
      | .ok made => (fingerprint made.position, .goOn)
      | .error _ => (s, .stop)
    | _ => (s, .goOn)

theorem heedsMoves_hasher : hasher.HeedsMoves := by
  intro s e he hsan
  cases e with
  | beginTags => exact absurd rfl he
  | san token => simp [Transcript.san?] at hsan
  | _ => rfl

/-- The position after moves that were made one after another. -/
def positionAfter (p : Position) (moves : List MoveMade) : Position :=
  (moves.getLast?.map MoveMade.position).getD p

theorem positionAfter_cons (p : Position) (made : MoveMade) (moves : List MoveMade) :
    positionAfter p (made :: moves) = positionAfter made.position moves := by
  unfold positionAfter
  rw [List.getLast?_cons]
  cases moves.getLast? <;> rfl

theorem hear_hasher (p : Position) (san : Text) :
    hasher.hear (fingerprint p) (.san san) = match makeMove p san with
      | .ok made => (fingerprint made.position, .goOn)
      | .error _ => (fingerprint p, .stop) := rfl

/-- The fingerprint is that of the position after the moves that can be made; a move that cannot be
made stops the hearing. -/
theorem runMoves_hasher (sans : List Text) (p : Position) :
    hasher.runMoves (fingerprint p) sans = (fingerprint (positionAfter p (replay p sans)),
      if (replay p sans).length = sans.length then .goOn else .stop) := by
  induction sans generalizing p with
  | nil => rfl
  | cons san sans ih =>
    rw [Listener.runMoves_cons, hear_hasher, replay]
    cases makeMove p san with
    | error illegal => rfl
    | ok made =>
      simp only [ih, positionAfter_cons, List.length_cons, Nat.add_right_cancel_iff]

/-- The fingerprint of a movetext, kept while it is read. -/
def hashed (m : Text) : Except OversizedNumeral (Option UInt64) :=
  if isBlankText m then .ok none
  else (follow hasher (fingerprint .initial) m).map fun (s, failed) =>
    if failed then none else some s.hash

/-- A listener that has stopped does not hear of the malformed place. -/
theorem hears_fault_eq (t : Transcript) :
    (t.isMalformed && (hasher.runMoves (fingerprint .initial) t.sans).2 == .goOn)
      = meetsFault t := by
  rw [runMoves_hasher, meetsFault]
  by_cases hall : (replay .initial t.sans).length = t.sans.length
  · rw [if_pos hall, beq_iff_eq.2 hall]
    rfl
  · rw [if_neg hall, beq_eq_false_iff_ne.2 hall]
    rfl

theorem hashed_eq (m : Text) : hashed m = movesHash m := by
  unfold hashed movesHash
  by_cases hb : isBlankText m = true
  · rw [if_pos hb, if_pos hb]
  · rw [if_neg hb, if_neg hb, follow_of_heedsMoves heedsMoves_hasher rfl]
    cases (Transcript.first m).checked with
    | error n => rfl
    | ok t =>
      simp only [Except.map, hears_fault_eq]
      rw [runMoves_hasher]
      rfl

/-! ## Move lists -/

/-- A position with the entries of the moves that led to it. -/
structure Listed where
  position : Position
  entries : List Json

/-- A limit that a number of moves has reached. -/
def isReached (limit : Option Int) (n : Nat) : Bool :=
  match limit with
  | none => false
  | some k => k ≤ n

/-- Lists the moves made, at most `limit` of them. -/
def lister (limit : Option Int) : Listener Listed where
  hear s
    | .san token =>
      if isReached limit s.entries.length then (s, .stop)
      else match makeMove s.position token with
        | .ok made => (⟨made.position, s.entries ++ [moveEntry (s.entries.length + 1) made]⟩, .goOn)
        | .error _ => (s, .stop)
    | _ => (s, .goOn)

theorem heedsMoves_lister (limit : Option Int) : (lister limit).HeedsMoves := by
  intro s e he hsan
  cases e with
  | san token => simp [Transcript.san?] at hsan
  | _ => rfl

theorem hear_lister (limit : Option Int) (s : Listed) (san : Text) :
    (lister limit).hear s (.san san) =
      if isReached limit s.entries.length then (s, .stop)
      else match makeMove s.position san with
        | .ok made => (⟨made.position, s.entries ++ [moveEntry (s.entries.length + 1) made]⟩, .goOn)
        | .error _ => (s, .stop) := rfl

/-- The limit that is left after `n` moves. -/
def limitAfter (limit : Option Int) (n : Nat) : Option Int := limit.map fun k => k - n

theorem atMost_of_isReached {α : Type} {limit : Option Int} {n : Nat}
    (h : isReached limit n = true) (l : List α) : atMost (limitAfter limit n) l = [] := by
  unfold isReached at h
  cases limit with
  | none => simp at h
  | some k =>
    have hk : k - n ≤ 0 := by
      have hle := of_decide_eq_true h
      omega
    show l.take (k - n).toNat = []
    rw [Int.toNat_of_nonpos hk, List.take_zero]

theorem atMost_of_not_isReached {α : Type} {limit : Option Int} {n : Nat}
    (h : isReached limit n = false) (a : α) (l : List α) :
    atMost (limitAfter limit n) (a :: l) = a :: atMost (limitAfter limit (n + 1)) l := by
  unfold isReached at h
  cases limit with
  | none => rfl
  | some k =>
    have hk : (k - n).toNat = (k - (n + 1 : Nat)).toNat + 1 := by
      have hlt := of_decide_eq_false h
      omega
    show (a :: l).take (k - n).toNat = a :: l.take (k - (n + 1 : Nat)).toNat
    rw [hk, List.take_succ_cons]

theorem atMost_nil {α : Type} (limit : Option Int) : atMost limit ([] : List α) = [] := by
  cases limit with
  | none => rfl
  | some k => exact List.take_nil

/-- The entries are those of the moves that can be made, cut at the limit. -/
theorem runMoves_lister (limit : Option Int) (sans : List Text) (s : Listed) :
    ((lister limit).runMoves s sans).1.entries = s.entries ++ moveEntries (s.entries.length + 1)
      (atMost (limitAfter limit s.entries.length) (replay s.position sans)) := by
  induction sans generalizing s with
  | nil =>
    rw [replay, atMost_nil]
    exact (List.append_nil _).symm
  | cons san sans ih =>
    rw [Listener.runMoves_cons, hear_lister]
    cases hreached : isReached limit s.entries.length with
    | true =>
      rw [atMost_of_isReached hreached]
      exact (List.append_nil _).symm
    | false =>
      rw [replay]
      cases makeMove s.position san with
      | error illegal =>
        simp only []
        rw [atMost_nil]
        exact (List.append_nil _).symm
      | ok made =>
        simp only []
        show ((lister limit).runMoves _ sans).1.entries = _
        rw [ih, atMost_of_not_isReached hreached, moveEntries, List.append_assoc]
        simp

/-- The move list of a movetext, made while it is read. -/
def listed (m : Text) (limit : Option Int) : Except OversizedNumeral Text :=
  if isBlankText m || isReached limit 0 then .ok ['[', ']']
  else (follow (lister limit) ⟨.initial, []⟩ m).map fun (s, _) => (Json.array s.entries).toText

theorem movesMade_of_isReached {limit : Option Int} (h : isReached limit 0 = true) (m : Text) :
    movesMade m limit = .ok [] := by
  unfold isReached at h
  cases limit with
  | none => simp at h
  | some k =>
    have hk : k ≤ 0 := by simpa using of_decide_eq_true h
    rw [movesMade, if_pos hk]

theorem movesMade_of_isBlankText {m : Text} (hb : isBlankText m = true) (limit : Option Int) :
    movesMade m limit = .ok [] := by
  rw [movesMade_of_ofMovetext (ofMovetext_of_isBlankText hb)]
  exact congrArg Except.ok (atMost_nil limit)

theorem movesMade_of_not_isReached {limit : Option Int} (h : isReached limit 0 = false) (m : Text) :
    movesMade m limit
      = (Transcript.first m).checked.map fun t => atMost limit (replay .initial t.sans) := by
  unfold isReached at h
  cases limit with
  | none => rfl
  | some k =>
    have hk : ¬k ≤ 0 := by simpa using of_decide_eq_false h
    rw [movesMade, if_neg hk]
    rfl

theorem listed_eq (m : Text) (limit : Option Int) : listed m limit = movesJson m limit := by
  unfold listed movesJson
  by_cases hnone : (isBlankText m || isReached limit 0) = true
  · have hmade : movesMade m limit = .ok [] := by
      rcases (Bool.or_eq_true _ _).mp hnone with hb | hreached
      · exact movesMade_of_isBlankText hb limit
      · exact movesMade_of_isReached hreached m
    rw [if_pos hnone, hmade]
    rfl
  · have hreached : isReached limit 0 = false := by
      cases hr : isReached limit 0 with
      | false => rfl
      | true => simp [hr] at hnone
    have hlimit : limitAfter limit 0 = limit := by cases limit <;> simp [limitAfter]
    rw [if_neg hnone, follow_of_heedsMoves (heedsMoves_lister limit) rfl,
      movesMade_of_not_isReached hreached]
    cases (Transcript.first m).checked with
    | error n => rfl
    | ok t =>
      have hentries := runMoves_lister limit t.sans ⟨.initial, []⟩
      rw [List.length_nil, hlimit, List.nil_append] at hentries
      simp only [Except.map, hentries]

end Scoresheet
