import Scoresheet.Proofs.Mainline.Followers

/-!
# The playable beginning of a main line

The moves of a main line are made one after another up to the first that cannot be made. What is
made is the longest beginning of the main line that can be made from the initial position
(`isLongestPlayable_replay`), and all analyses are functions of it: the move list has an entry for
each of its moves, a limit cuts that list, and the fingerprint is that of the position behind it
(`analyses_of_mainline`).
-/

namespace Scoresheet

open Text Pgn Chess

/-! ## Making all moves -/

/-- Makes moves one after another; fails at the first that cannot be made. -/
def applyAll (p : Position) : List Text → Except IllegalMove Position
  | [] => .ok p
  | san :: sans => match makeMove p san with
    | .ok made => applyAll made.position sans
    | .error illegal => .error illegal

/-- Moves that can be made one after another. -/
def IsPlayable (p : Position) (sans : List Text) : Prop := ∃ q, applyAll p sans = .ok q

/-- The longest beginning of a list of moves that can be made. -/
structure IsLongestPlayable (p : Position) (sans played : List Text) : Prop where
  isPrefix : played <+: sans
  isPlayable : IsPlayable p played
  longest : ∀ other, other <+: sans → IsPlayable p other → other <+: played

variable {p : Position}

theorem applyAll_cons {san : Text} {made : MoveMade} (h : makeMove p san = .ok made)
    (sans : List Text) : applyAll p (san :: sans) = applyAll made.position sans := by
  rw [applyAll, h]

theorem not_isPlayable_cons {san : Text} {illegal : IllegalMove}
    (h : makeMove p san = .error illegal) (sans : List Text) : ¬IsPlayable p (san :: sans) := by
  rintro ⟨q, hq⟩
  rw [applyAll, h] at hq
  simp at hq

theorem san_of_makeMove {san : Text} {made : MoveMade} (h : makeMove p san = .ok made) :
    made.san = san := by
  unfold makeMove at h
  split at h
  · rw [← Except.ok.inj h]
  · simp at h

theorem replay_cons {san : Text} {made : MoveMade} (h : makeMove p san = .ok made)
    (sans : List Text) : replay p (san :: sans) = made :: replay made.position sans := by
  rw [replay, h]

theorem replay_cons_of_error {san : Text} {illegal : IllegalMove}
    (h : makeMove p san = .error illegal) (sans : List Text) : replay p (san :: sans) = [] := by
  rw [replay, h]

/-! ## What a replay makes -/

/-- The moves that a replay makes. -/
def playedSans (p : Position) (sans : List Text) : List Text := (replay p sans).map MoveMade.san

theorem playedSans_cons {san : Text} {made : MoveMade} (h : makeMove p san = .ok made)
    (sans : List Text) : playedSans p (san :: sans) = san :: playedSans made.position sans := by
  rw [playedSans, replay_cons h, List.map_cons, san_of_makeMove h, playedSans]

theorem playedSans_cons_of_error {san : Text} {illegal : IllegalMove}
    (h : makeMove p san = .error illegal) (sans : List Text) :
    playedSans p (san :: sans) = [] := by
  rw [playedSans, replay_cons_of_error h, List.map_nil]

/-- The moves that a replay makes lead to its last position. -/
theorem applyAll_playedSans (sans : List Text) (p : Position) :
    applyAll p (playedSans p sans) = .ok (positionAfter p (replay p sans)) := by
  induction sans generalizing p with
  | nil => rfl
  | cons san sans ih =>
    cases h : makeMove p san with
    | error illegal =>
      rw [playedSans_cons_of_error h, replay_cons_of_error h]
      rfl
    | ok made => rw [playedSans_cons h, applyAll_cons h, replay_cons h, positionAfter_cons, ih]

/-- **A replay makes the longest beginning that can be made.** -/
theorem isLongestPlayable_replay (sans : List Text) (p : Position) :
    IsLongestPlayable p sans (playedSans p sans) := by
  refine ⟨?_, ⟨_, applyAll_playedSans sans p⟩, ?_⟩
  · induction sans generalizing p with
    | nil => exact List.prefix_rfl
    | cons san sans ih =>
      cases h : makeMove p san with
      | error illegal =>
        rw [playedSans_cons_of_error h]
        exact List.nil_prefix
      | ok made =>
        rw [playedSans_cons h, List.prefix_cons_inj]
        exact ih made.position
  · induction sans generalizing p with
    | nil =>
      intro other hother _
      rw [List.prefix_nil.1 hother]
      exact List.nil_prefix
    | cons san sans ih =>
      intro other hother hplayable
      cases other with
      | nil => exact List.nil_prefix
      | cons san' other =>
        -- both begin with the same move, which can be made since the other beginning can
        obtain ⟨rfl, htail⟩ := List.cons_prefix_cons.1 hother
        cases h : makeMove p san' with
        | error illegal => exact absurd hplayable (not_isPlayable_cons h other)
        | ok made =>
          obtain ⟨q, hq⟩ := hplayable
          rw [applyAll_cons h] at hq
          rw [playedSans_cons h, List.prefix_cons_inj]
          exact ih made.position other htail ⟨q, hq⟩

/-- Each move made leads to its own position. -/
theorem applyAll_take_playedSans {sans : List Text} {i : Nat} {made : MoveMade}
    (h : (replay p sans)[i]? = some made) :
    applyAll p ((playedSans p sans).take (i + 1)) = .ok made.position := by
  induction sans generalizing p i with
  | nil => simp [replay] at h
  | cons san sans ih =>
    cases hmove : makeMove p san with
    | error illegal => simp [replay_cons_of_error hmove] at h
    | ok first =>
      rw [replay_cons hmove] at h
      rw [playedSans_cons hmove, List.take_succ_cons, applyAll_cons hmove]
      cases i with
      | zero =>
        obtain rfl : first = made := by simpa using h
        rfl
      | succ i => exact ih (by simpa using h)

/-! ## Entries -/

/-- The entries are the moves made, each with its number. -/
theorem moveEntries_eq (moves : List MoveMade) (ply : Nat) :
    moveEntries ply moves = moves.mapIdx fun i made => moveEntry (ply + i) made := by
  induction moves generalizing ply with
  | nil => rfl
  | cons made moves ih =>
    have hply : ∀ i, ply + 1 + i = ply + (i + 1) := by
      intro i
      omega
    rw [moveEntries, ih, List.mapIdx_cons]
    simp only [hply, Nat.add_zero]

theorem moveEntries_take (moves : List MoveMade) (ply n : Nat) :
    moveEntries ply (moves.take n) = (moveEntries ply moves).take n := by
  refine List.ext_getElem? fun i => ?_
  rw [moveEntries_eq, moveEntries_eq, List.getElem?_mapIdx, List.getElem?_take, List.getElem?_take,
    List.getElem?_mapIdx]
  split
  · rfl
  · rfl

/-- Entries of moves that are made from the initial position: one for each move, with its number,
its text and the position after it. -/
structure AreEntriesOf (entries : List Json) (sans : List Text) : Prop where
  length : entries.length = sans.length
  entry : ∀ i san, sans[i]? = some san → ∃ q, applyAll .initial (sans.take (i + 1)) = .ok q ∧
    entries[i]? = some (.object [("ply".toList, .number (i + 1)), ("move".toList, .string san),
      ("fen".toList, .string q.fen), ("epd".toList, .string q.epd)])

theorem areEntriesOf_replay (sans : List Text) :
    AreEntriesOf (moveEntries 1 (replay .initial sans)) (playedSans .initial sans) := by
  rw [moveEntries_eq]
  refine ⟨by rw [List.length_mapIdx, playedSans, List.length_map], ?_⟩
  intro i san hsan
  rw [playedSans, List.getElem?_map] at hsan
  obtain ⟨made, hmade, rfl⟩ := Option.map_eq_some_iff.1 hsan
  refine ⟨made.position, applyAll_take_playedSans hmade, ?_⟩
  rw [List.getElem?_mapIdx, hmade, Option.map_some, moveEntry, Nat.add_comm 1 i]

/-! ## All analyses -/

/-- **The analyses are functions of the main line.** The move list has an entry for each move of the
longest beginning that can be played, and a limit cuts it. Unless the text is malformed its moves
are counted and its fingerprint is that of the position after that beginning; a malformed text has
no moves to count. All of them are what listeners make of the text while it is read. -/
theorem analyses_of_mainline {m : Text} (hb : isBlankText m = false)
    (hread : (Transcript.first m).isOversized = false) :
    ∃ main played q entries, Mainline.ofMovetext m = .ok main ∧
      IsLongestPlayable .initial main.sans played ∧ applyAll .initial played = .ok q ∧
      AreEntriesOf entries played ∧
      movesJson m none = .ok (Json.array entries).toText ∧
      (∀ k : Int, movesJson m (some k) = .ok (Json.array (entries.take k.toNat)).toText) ∧
      (main.failed = false →
        plyCount m = .ok main.sans.length ∧ movesHash m = .ok (some q.hash)) ∧
      (main.failed = true → plyCount m = .ok 0) ∧
      gathered m = Mainline.ofMovetext m ∧ counted m = plyCount m ∧ hashed m = movesHash m ∧
      ∀ limit, listed m limit = movesJson m limit := by
  have hm := ofMovetext_of_not_isOversized hread
  generalize Mainline.ofTranscript (Transcript.first m) = main at hm
  have hjson : ∀ limit, movesJson m limit
      = .ok (Json.array (moveEntries 1 (atMost limit (replay .initial main.sans)))).toText := by
    intro limit
    rw [movesJson, movesMade_of_ofMovetext hm]
    rfl
  have hplies := plyCount_of_ofMovetext hm
  refine ⟨main, playedSans .initial main.sans, _, _, hm, isLongestPlayable_replay main.sans _,
    applyAll_playedSans main.sans _, areEntriesOf_replay main.sans, hjson none, fun k => ?_, ?_, ?_,
    gathered_eq m, counted_eq m, hashed_eq m, listed_eq m⟩
  · rw [hjson, ← moveEntries_take]
    rfl
  · intro hfailed
    refine ⟨?_, movesHash_of_ofMovetext hm hb hfailed⟩
    rw [hplies, Mainline.plyCount, hfailed]
    rfl
  · intro hfailed
    rw [hplies, Mainline.plyCount, hfailed]
    rfl

/-- A game whose third move cannot be made. -/
def brokenGame : Text := "1. e4 e5 2. Kd4 Nc6 *".toList

theorem analyses_of_mainline_brokenGame :
    isBlankText brokenGame = false ∧ (Transcript.first brokenGame).isOversized = false ∧
      ∃ main played q, Mainline.ofMovetext brokenGame = .ok main ∧ main.sans.length = 4 ∧
        IsLongestPlayable .initial main.sans played ∧ applyAll .initial played = .ok q ∧
        plyCount brokenGame = .ok 4 ∧ movesHash brokenGame = .ok (some q.hash) := by
  have hb : isBlankText brokenGame = false := by decide
  have hread : (Transcript.first brokenGame).isOversized = false := by decide +kernel
  have hmain : Mainline.ofMovetext brokenGame = .ok ⟨["e4".toList, "e5".toList, "Kd4".toList,
      "Nc6".toList], some ['*'], false⟩ := by decide +kernel
  obtain ⟨main, played, q, _, hm, hlongest, happly, _, _, _, hwhole, _⟩ :=
    analyses_of_mainline hb hread
  obtain rfl := Except.ok.inj (hm.symm.trans hmain)
  obtain ⟨hplies, hhash⟩ := hwhole rfl
  exact ⟨hb, hread, _, played, q, hm, rfl, hlongest, happly, hplies, hhash⟩

end Scoresheet
