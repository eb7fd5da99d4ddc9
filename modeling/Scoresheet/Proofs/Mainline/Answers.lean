import Scoresheet.Proofs.Mainline.Followers
import Scoresheet.Proofs.Pgn.NestedCalls

/-!
# Which texts get an answer

Whatever stands in a game text, it is read to its end and reported token by token, or it is reported
as malformed; the analyses of a movetext give an answer either way. There are two exceptions, both
of them words of the main line: a numeric annotation of too many digits, and a word with more move
numbers glued to its front than calls may be nested (`answers_unless_faulty_token`).

An analysis is a listener together with what is made of what it has heard (`Analysis`). So what
holds of all of them is proved once (`Analysis.isAnswer`).
-/

namespace Scoresheet

open Text Pgn Chess

variable {σ α β γ : Type} {calls : Nat}

/-! ## Reading with a listener -/

namespace Pgn

/-- How a game is read if no more than `calls` calls may be nested: token by token, and it is broken
off for nothing but a faulty token. -/
structure ReadsTokens (calls : Nat) (l : Listener σ) (s : σ) (lines : List Line) : Prop where
  /-- The first faulty token says why a reading is broken off. -/
  error_iff : ∀ fault, hearGameWithin calls l s lines = .error fault ↔
    firstFault? calls lines = some fault
  breaksOff_iff : (∃ fault, hearGameWithin calls l s lines = .error fault) ↔
    HasFaultyToken calls lines
  /-- Otherwise there is a game, which is complete or malformed, or no game is left. -/
  noGame_iff : hearGameWithin calls l s lines = .ok none ↔
    ¬HasFaultyToken calls lines ∧ readGame lines = none
  error : ∀ h, hearGameWithin calls l s lines = .ok (some h) →
    ∀ n, h.error ≠ some (.oversizedNag n)
  hearing : ∀ h, hearGameWithin calls l s lines = .ok (some h) →
    h.hearing = (Hearing.start s).tellAll l (eventsOf lines)
  events : l.NeverStops → ∀ h, hearGameWithin calls l s lines = .ok (some h) →
    h.hearing.events = eventsOf lines

/-- A game that is heard to its end has no oversized annotation, and all its tokens are told. -/
theorem exists_of_hearGameWithin {l : Listener σ} {s : σ} {lines : List Line} {h : Heard σ}
    (hh : hearGameWithin calls l s lines = .ok (some h)) :
    ∃ t rest, readGame lines = some (t, rest) ∧ t.events = eventsOf lines ∧
      t.isOversized = false ∧
      h = ⟨(Hearing.start s).tellAll l t.events, (t.playTo l s).2, rest⟩ := by
  rw [hearGameWithin_eq] at hh
  split at hh
  · cases hh
  · rename_i hfault
    have hover := not_hasOversizedToken (firstFault?_eq_none_iff.1 hfault)
    rw [Except.ok.injEq, hearGame_eq, Option.map_eq_some_iff] at hh
    obtain ⟨⟨t, rest⟩, hread, rfl⟩ := hh
    have hgame : (gameFrom lines).1 = t := by rw [(gameFrom_of_readGame hread).1]
    refine ⟨t, rest, hread, ?_, ?_, rfl⟩
    · rw [← hgame, gameFrom_of_not_hasOversizedToken hover]
    · rwa [← hgame, ← Bool.not_eq_true, isOversized_gameFrom]

theorem readsTokens (calls : Nat) (l : Listener σ) (s : σ) (lines : List Line) :
    ReadsTokens calls l s lines := by
  have herror : ∀ fault, hearGameWithin calls l s lines = .error fault ↔
      firstFault? calls lines = some fault := by
    intro fault
    rw [hearGameWithin_eq]
    cases firstFault? calls lines <;> simp
  constructor
  case error_iff => exact herror
  case breaksOff_iff =>
    rw [← isSome_firstFault?_iff, Option.isSome_iff_exists]
    exact exists_congr herror
  case noGame_iff =>
    rw [hearGameWithin_eq, ← firstFault?_eq_none_iff]
    cases firstFault? calls lines with
    | some fault => simp
    | none => simp [hearGame_eq]
  case error =>
    intro h hh n hn
    obtain ⟨t, rest, _, _, hover, rfl⟩ := exists_of_hearGameWithin hh
    have herror : t.error = some (.oversizedNag n) := by
      rw [t.playTo_snd] at hn
      cases hrun : (l.run s t.events).2 <;> rcases he : t.error with _ | _ | _ <;> simp_all
    simp [Transcript.isOversized, herror] at hover
  case hearing =>
    intro h hh
    obtain ⟨t, rest, _, hevents, _, rfl⟩ := exists_of_hearGameWithin hh
    rw [hevents]
  case events =>
    intro hl h hh
    obtain ⟨t, rest, _, hevents, _, rfl⟩ := exists_of_hearGameWithin hh
    rw [← hevents, Listener.tellAll_start]
    exact (l.exchange_of_findIdx?_eq_none t.events s (hl.findIdx?_exchange t.events s)).1

end Pgn

/-! ## Analyses -/

theorem isOversized_first_iff (m : Text) :
    (Transcript.first m).isOversized = true ↔ HasOversizedToken (lines m) := by
  unfold Transcript.first
  cases hread : readGame (lines m) with
  | some r =>
    rw [← isOversized_gameFrom, (gameFrom_of_readGame hread).1]
    rfl
  | none =>
    -- lines without a game have no tokens
    have hnil : (lines m).dropWhile isBetweenGames = [] := by
      cases hd : (lines m).dropWhile isBetweenGames with
      | nil => rfl
      | cons line rest => simp [readGame, hd] at hread
    refine iff_of_false (by simp [Transcript.isOversized, Transcript.empty]) ?_
    rintro ⟨token, hmem, _⟩
    rw [← gameTokens_dropWhile, hnil] at hmem
    cases hmem

/-- What a listener makes of the first game of a movetext, if no more than `calls` calls may be
nested, and whether it was told that the game is malformed. -/
def followWithin (calls : Nat) (l : Listener σ) (s : σ) (m : Text) : Except WordFault (σ × Bool) :=
  match hearGameWithin calls l s (lines m) with
  | .error fault => .error fault
  | .ok none => .ok (s, false)
  | .ok (some h) => match h.error with
    | none => .ok (h.hearing.state, false)
    | some (.malformed _) => .ok (h.hearing.state, true)
    | some (.oversizedNag n) => .error (.oversized n)

/-- A movetext of which every token can be reported. -/
def IsReadable (calls : Nat) (m : Text) : Prop := ¬HasFaultyToken calls (lines m)

theorem isReadable_of_isBlankText {m : Text} (hb : isBlankText m = true) : IsReadable calls m := by
  rintro ⟨token, hmem, _⟩
  rw [← gameTokens_dropWhile, dropWhile_lines_of_isBlankText hb] at hmem
  cases hmem

/-- An answer is given exactly under a condition, and then it is the one that is expected. -/
structure IsAnswer (condition : Prop) (expected : Except OversizedNumeral α)
    (given : Except WordFault α) : Prop where
  exists_iff : (∃ a, given = .ok a) ↔ condition
  expected_of_given : ∀ a, given = .ok a → expected = .ok a

theorem isAnswer_ok {condition : Prop} (h : condition) (a : α) :
    IsAnswer condition (.ok a) (.ok a) where
  exists_iff := iff_of_true ⟨a, rfl⟩ h
  expected_of_given b hb := by rw [Except.ok.inj hb]

theorem IsAnswer.map {condition : Prop} {expected : Except OversizedNumeral α}
    {given : Except WordFault α} (h : IsAnswer condition expected given) (f : α → β) :
    IsAnswer condition (expected.map f) (given.map f) where
  exists_iff := by
    rw [← h.exists_iff]
    cases given <;> simp [Except.map]
  expected_of_given b hb := by
    cases given with
    | error fault => simp [Except.map] at hb
    | ok a =>
      rw [h.expected_of_given a rfl]
      exact congrArg Except.ok (Except.ok.inj hb)

theorem IsAnswer.map₂ {c d : Prop} {x : Except OversizedNumeral α} {x' : Except WordFault α}
    {y : Except OversizedNumeral β} {y' : Except WordFault β} (hx : IsAnswer c x x')
    (hy : IsAnswer d y y') (f : α → β → γ) :
    IsAnswer (c ∧ d) (do return f (← x) (← y)) (do return f (← x') (← y')) where
  exists_iff := by
    rw [← hx.exists_iff, ← hy.exists_iff]
    cases x' <;> cases y' <;> simp [bind, Except.bind, pure, Except.pure]
  expected_of_given a ha := by
    rcases x' with fault | x' <;> rcases y' with fault | y' <;>
      simp only [bind, Except.bind, pure, Except.pure, reduceCtorEq] at ha
    rw [hx.expected_of_given x' rfl, hy.expected_of_given y' rfl]
    exact congrArg Except.ok (Except.ok.inj ha)

/-- **A readable movetext is followed** as without a bound; one that is not readable is not. -/
theorem isAnswer_followWithin (l : Listener σ) (s : σ) (m : Text) :
    IsAnswer (IsReadable calls m) (follow l s m) (followWithin calls l s m) := by
  unfold IsReadable followWithin
  rw [hearGameWithin_eq]
  cases hfault : firstFault? calls (lines m) with
  | some fault =>
    have hfaulty : HasFaultyToken calls (lines m) := by
      rw [← isSome_firstFault?_iff, hfault]
      rfl
    constructor
    case exists_iff => exact iff_of_false (by simp) (not_not.2 hfaulty)
    case expected_of_given => exact fun a h => nomatch h
  | none =>
    have hreadable := firstFault?_eq_none_iff.1 hfault
    have hover : (Transcript.first m).isOversized = false := by
      rw [← Bool.not_eq_true, isOversized_first_iff]
      exact not_hasOversizedToken hreadable
    have hfollow := follow_eq l s m
    rw [checked_of_not_isOversized hover] at hfollow
    unfold follow at hfollow ⊢
    cases hheard : hearGame l s (lines m) with
    | none =>
      simp only []
      exact isAnswer_ok hreadable _
    | some h =>
      simp only [hheard] at hfollow ⊢
      rcases herror : h.error with _ | fault | n
      · exact isAnswer_ok hreadable _
      · exact isAnswer_ok hreadable _
      · simp [herror, Except.map] at hfollow

/-- An analysis of movetexts that follows the reading. -/
structure Analysis (α : Type) where
  State : Type
  listener : Listener State
  start : State
  /-- The movetexts that are not read, and the answer for them. -/
  skips : Text → Bool
  skipped : α
  /-- The answer for what has been heard, given whether the game was told to be malformed. -/
  conclude : State → Bool → α

namespace Analysis

/-- What an analysis makes of a movetext. -/
def run (a : Analysis α) (m : Text) : Except OversizedNumeral α :=
  if a.skips m then .ok a.skipped
  else (follow a.listener a.start m).map fun (s, failed) => a.conclude s failed

/-- What an analysis makes of a movetext, if no more than `calls` calls may be nested. -/
def runWithin (calls : Nat) (a : Analysis α) (m : Text) : Except WordFault α :=
  if a.skips m then .ok a.skipped
  else (followWithin calls a.listener a.start m).map fun (s, failed) => a.conclude s failed

/-- **An analysis gives an answer** exactly if the movetext need not be read or can be. -/
theorem isAnswer (a : Analysis α) (m : Text) :
    IsAnswer (a.skips m = true ∨ IsReadable calls m) (a.run m) (a.runWithin calls m) := by
  unfold run runWithin
  by_cases hskips : a.skips m = true
  · rw [if_pos hskips, if_pos hskips]
    exact isAnswer_ok (Or.inl hskips) _
  · rw [if_neg hskips, if_neg hskips, or_iff_right hskips]
    exact (isAnswer_followWithin a.listener a.start m).map _

/-- A blank movetext is readable, so an analysis that skips it answers every readable one. -/
theorem isAnswer_of_skips_iff {a : Analysis α} (ha : ∀ m, a.skips m = isBlankText m) (m : Text) :
    IsAnswer (IsReadable calls m) (a.run m) (a.runWithin calls m) := by
  have hcondition : (a.skips m = true ∨ IsReadable calls m) ↔ IsReadable calls m := by
    rw [ha]
    exact or_iff_right_of_imp isReadable_of_isBlankText
  rw [← hcondition]
  exact a.isAnswer m

/-- An analysis whose answer is put into another form. -/
def map (f : α → β) (a : Analysis α) : Analysis β where
  State := a.State
  listener := a.listener
  start := a.start
  skips := a.skips
  skipped := f a.skipped
  conclude s failed := f (a.conclude s failed)

theorem run_map (f : α → β) (a : Analysis α) (m : Text) : (a.map f).run m = (a.run m).map f := by
  unfold run map
  cases a.skips m with
  | true => rfl
  | false =>
    simp only [Bool.false_eq_true, if_false]
    cases follow a.listener a.start m <;> rfl

/-! ## The analyses of a movetext -/

def mainline : Analysis Mainline where
  State := Gathered
  listener := gatherer
  start := ⟨[], none⟩
  skips := isBlankText
  skipped := ⟨[], none, false⟩
  conclude g failed := ⟨g.sans, g.outcome, failed⟩

def normalForm : Analysis Text := mainline.map Mainline.render

def moveCount : Analysis Nat where
  State := Nat
  listener := counter
  start := 0
  skips := isBlankText
  skipped := 0
  conclude n failed := if failed then 0 else n

def finalHash : Analysis (Option UInt64) where
  State := Fingerprinted
  listener := hasher
  start := fingerprint .initial
  skips := isBlankText
  skipped := none
  conclude s failed := if failed then none else some s.hash

def moveList (limit : Option Int) : Analysis Text where
  State := Listed
  listener := lister limit
  start := ⟨.initial, []⟩
  skips m := isBlankText m || isReached limit 0
  skipped := ['[', ']']
  conclude s _ := (Json.array s.entries).toText

theorem run_mainline (m : Text) : mainline.run m = Mainline.ofMovetext m := by
  rw [← gathered_eq]
  rfl

theorem run_normalForm (m : Text) : normalForm.run m = normalize m := by
  rw [normalForm, run_map, run_mainline]
  rfl

theorem run_moveCount (m : Text) : moveCount.run m = plyCount m := by
  rw [← counted_eq]
  rfl

theorem run_finalHash (m : Text) : finalHash.run m = movesHash m := by
  rw [← hashed_eq]
  rfl

theorem run_moveList (limit : Option Int) (m : Text) :
    (moveList limit).run m = movesJson m limit := by
  rw [← listed_eq]
  rfl

end Analysis

/-- Whether the main line of a text is a beginning of another's, if no more than `calls` calls may
be nested. -/
def isSubsetWithin (calls : Nat) (short long : Text) : Except WordFault Bool :=
  match isSubsetFast short long with
  | some b => .ok b
  | none => do
    let s ← Analysis.mainline.runWithin calls short
    let l ← Analysis.mainline.runWithin calls long
    return !hasNoMainline short s && !hasNoMainline long l && s.sans.isPrefixOf l.sans

/-- The answers for a movetext if no more than `calls` calls may be nested. A move list of no moves
is given in any case. -/
structure IsAnswered (calls : Nat) (m : Text) : Prop where
  mainline : IsAnswer (IsReadable calls m) (Mainline.ofMovetext m)
    (Analysis.mainline.runWithin calls m)
  normalize : IsAnswer (IsReadable calls m) (normalize m) (Analysis.normalForm.runWithin calls m)
  plyCount : IsAnswer (IsReadable calls m) (plyCount m) (Analysis.moveCount.runWithin calls m)
  movesHash : IsAnswer (IsReadable calls m) (movesHash m) (Analysis.finalHash.runWithin calls m)
  movesJson : ∀ limit, IsAnswer ((∃ k, limit = some k ∧ k ≤ 0) ∨ IsReadable calls m)
    (movesJson m limit) ((Analysis.moveList limit).runWithin calls m)

theorem isAnswered (calls : Nat) (m : Text) : IsAnswered calls m := by
  constructor
  case mainline =>
    rw [← Analysis.run_mainline]
    exact Analysis.isAnswer_of_skips_iff (fun _ => rfl) m
  case normalize =>
    rw [← Analysis.run_normalForm]
    exact Analysis.isAnswer_of_skips_iff (fun _ => rfl) m
  case plyCount =>
    rw [← Analysis.run_moveCount]
    exact Analysis.isAnswer_of_skips_iff (fun _ => rfl) m
  case movesHash =>
    rw [← Analysis.run_finalHash]
    exact Analysis.isAnswer_of_skips_iff (fun _ => rfl) m
  case movesJson =>
    intro limit
    have hreached : isReached limit 0 = true ↔ ∃ k, limit = some k ∧ k ≤ 0 := by
      cases limit <;> simp [isReached]
    have hcondition : ((∃ k, limit = some k ∧ k ≤ 0) ∨ IsReadable calls m) ↔
        ((Analysis.moveList limit).skips m = true ∨ IsReadable calls m) := by
      have hblank : isBlankText m = true → IsReadable calls m := isReadable_of_isBlankText
      simp only [Analysis.moveList, Bool.or_eq_true, ← hreached]
      tauto
    rw [← Analysis.run_moveList, hcondition]
    exact (Analysis.moveList limit).isAnswer m

theorem isAnswer_isSubsetWithin (calls : Nat) (short long : Text) :
    IsAnswer ((isSubsetFast short long).isSome = true ∨
        IsReadable calls short ∧ IsReadable calls long)
      (isSubset short long) (isSubsetWithin calls short long) := by
  unfold isSubset isSubsetWithin
  cases isSubsetFast short long with
  | some b => exact isAnswer_ok (Or.inl rfl) b
  | none =>
    have hcondition : (((none : Option Bool).isSome = true) ∨
        IsReadable calls short ∧ IsReadable calls long) ↔
          IsReadable calls short ∧ IsReadable calls long := or_iff_right (by simp)
    rw [hcondition]
    exact (isAnswered calls short).mainline.map₂ (isAnswered calls long).mainline _

/-- **Only a faulty token keeps a text from an answer.** If no more than `calls` calls may be nested
for a word, a game text is read to its end and its tokens are told to the listener one after
another, whatever they are, or a malformed place is reported, unless a token of the main line is a
numeric annotation of too many digits or has `calls` move numbers or more glued to its front. The
same holds for each of the analyses. -/
theorem answers_unless_faulty_token (calls : Nat) (l : Listener σ) (s : σ) (input : List Line)
    (short long : Text) :
    ReadsTokens calls l s input ∧ IsAnswered calls short ∧
    IsAnswer ((isSubsetFast short long).isSome = true ∨
        IsReadable calls short ∧ IsReadable calls long)
      (isSubset short long) (isSubsetWithin calls short long) :=
  ⟨readsTokens calls l s input, isAnswered calls short, isAnswer_isSubsetWithin calls short long⟩

/-! ## Texts without an answer -/

/-- A movetext of an annotation with `n` digits and a move. -/
def annotated (n : Nat) : Text := '$' :: List.replicate n '1' ++ " e4".toList

theorem hasOversizedToken_annotated {n : Nat} (hn : maxDigits < n) :
    HasOversizedToken (lines (annotated n)) := by
  have hdigits : ∀ c ∈ List.replicate n '1', c = '1' := fun c hc => List.eq_of_mem_replicate hc
  have hoversized : IsOversizedWord ('$' :: List.replicate n '1') := by
    refine ⟨[], List.replicate n '1', rfl, by simp, by simp, ?_, ?_⟩
    · have hne : n ≠ 0 := by omega
      simp [isNumeral, hne, isAsciiDigit]
    · rwa [List.length_replicate]
  have hletters : ∀ c ∈ '$' :: List.replicate n '1', isWordBreak c = false ∧ c ≠ '\n' := by
    intro c hc
    rcases List.mem_cons.1 hc with rfl | hc
    · decide
    · rw [hdigits c hc]
      decide
  have hline : '\n' ∉ annotated n := by
    intro h
    rcases List.mem_append.1 h with h | h
    · exact (hletters _ h).2 rfl
    · exact absurd h (by decide)
  exact ⟨_, mem_gameTokens (fun c hc => (hletters c hc).1) (by decide) (by decide)
    (Or.inr ⟨"e4".toList, rfl⟩) hline, hoversized⟩

/-- A text with an annotation of 4301 digits has no main line. -/
theorem no_mainline_of_long_annotation : ¬∃ p, Mainline.ofMovetext (annotated 4301) = .ok p := by
  rintro ⟨p, hp⟩
  have hnot := (not_isOversized_of_ofMovetext hp).1
  rw [(isOversized_first_iff _).2 (hasOversizedToken_annotated (by decide))] at hnot
  cases hnot

/-- However many calls may be nested, there is a text whose main line takes more. -/
theorem no_mainline_of_gluedMove (calls : Nat) :
    ¬∃ p, Analysis.mainline.runWithin calls (gluedMove calls) = .ok p := by
  intro hp
  exact (isAnswered calls _).mainline.exists_iff.1 hp (hasFaultyToken_gluedMove calls)

end Scoresheet
