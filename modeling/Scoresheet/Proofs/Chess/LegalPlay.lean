import Scoresheet.Mainline.Replay

/-!
# Positions that play can reach

A text names a legal move or a pass (`Position.isPlayableMove_of_resolve?`). Such moves keep the
castling rights clean: king and rook of a right that is left stand where they started
(`Position.HasCleanRights.play`). The side to move and the two counters depend on how many moves
were made, so a position that is reached after `n` moves is known in those respects
(`IsReachedAfter`), and a replay reaches such positions (`IsReachedAfter.of_replay`).
-/

namespace Scoresheet.Chess

open Text

namespace Position

variable {p : Position} {source target : Square} {promotion : Option Officer}

/-! ## Moves that texts name -/

/-- What can be made of a text: a legal move, or a pass. -/
def IsPlayableMove (p : Position) (move : Move) : Prop := p.isLegal move = true ∨ move = .pass

theorem isLegal_of_resolveFrom? {move : Move}
    (h : p.resolveFrom? source target promotion = some move) : p.isLegal move = true := by
  simp only [resolveFrom?, Option.ite_none_right_eq_some, Option.some.injEq] at h
  obtain ⟨hlegal, rfl⟩ := h
  exact hlegal

theorem mem_of_theOnly? {α : Type} {l : List α} {a : α} (h : theOnly? l = some a) : a ∈ l := by
  unfold theOnly? at h
  split at h
  · rw [← Option.some.inj h]
    exact List.mem_singleton_self _
  · simp at h

theorem isLegal_of_resolveMoveText? {m : MoveText} {move : Move}
    (h : p.resolveMoveText? m = some move) : p.isLegal move = true := by
  unfold resolveMoveText? at h
  split at h
  · exact isLegal_of_resolveFrom? h
  · obtain ⟨source, hsource, rfl⟩ := Option.map_eq_some_iff.1 h
    have hfits := (List.mem_filter.1 (mem_of_theOnly? hsource)).2
    exact (Bool.and_eq_true_iff.1 hfits).2

/-- **A text names a legal move or a pass.** -/
theorem isPlayableMove_of_resolve? {t : Text} {move : Move} (h : p.resolve? t = some move) :
    p.IsPlayableMove move := by
  unfold resolve? at h
  split at h
  · rename_i san _
    left
    cases san with
    | castling wing mark =>
      simp only [resolveSan?, Option.ite_none_right_eq_some, Option.some.injEq] at h
      obtain ⟨hlegal, rfl⟩ := h
      exact hlegal
    | move m => exact isLegal_of_resolveMoveText? h
  · right
    split at h
    · exact (Option.some.inj h).symm
    · simp at h

/-! ## Steps -/

/-- What a step of the rules takes for granted about its squares. -/
structure IsStep (p : Position) (source target : Square) : Prop where
  own : ∃ piece, p.get source = some piece ∧ piece.color = p.turn
  free : p.holdsOwn target = false
  enPassantRank : p.takesEnPassant source target = true → source.rank = p.turn.enPassantRank

theorem isStep_of_isPseudoLegal (h : p.isPseudoLegal source target promotion = true) :
    p.IsStep source target := by
  unfold isPseudoLegal at h
  split at h
  · simp at h
  · rename_i piece hpiece
    simp only [Bool.and_eq_true, beq_iff_eq, Bool.not_eq_true'] at h
    obtain ⟨⟨hcolor, hfree⟩, hkind⟩ := h
    refine ⟨⟨piece, hpiece, hcolor⟩, hfree, fun htakes => ?_⟩
    simp only [takesEnPassant, Bool.and_eq_true, beq_iff_eq, bne_iff_ne, ne_eq] at htakes
    obtain ⟨⟨⟨hpawn, _⟩, hfile⟩, hempty⟩ := htakes
    obtain rfl := Option.some.inj (hpiece.symm.trans hpawn)
    -- a pawn that changes its file captures, and there is nothing to capture on the target itself
    have hadvances : p.pawnAdvances source target = false := by simp [pawnAdvances, hfile]
    have henemy : p.holdsEnemy target = false := by
      rw [holdsEnemy, Option.isNone_iff_eq_none.1 hempty]
      rfl
    simp only [hadvances, pawnCaptures, henemy, Bool.false_or, Bool.and_eq_true, beq_iff_eq]
      at hkind
    exact hkind.2.2.2

/-- A square that a step neither leaves nor reaches and on which it takes no pawn stays as it is. -/
theorem get_boardAfterStep_of_ne {s : Square} (hsource : source ≠ s) (htarget : target ≠ s)
    (hpassed : p.takesEnPassant source target = true → source.rank ≠ s.rank) :
    (p.boardAfterStep source target promotion).get s = p.get s := by
  simp only [boardAfterStep, Board.get_set, if_neg hsource, if_neg htarget]
  split
  · rename_i htakes
    have hvictim : (⟨target.file, source.rank⟩ : Square) ≠ s := by
      rintro rfl
      exact hpassed htakes rfl
    rw [Board.get_set, if_neg hvictim]
    rfl
  · rfl

/-! ## Clean rights -/

/-- The castling rights are there only while king and rook stand where they started. -/
def HasCleanRights (p : Position) : Prop := CastlingRights.clean p.board p.rights = p.rights

theorem hasCleanRights_iff : p.HasCleanRights ↔
    ∀ c w, p.rights.allows c w = true → CastlingRights.standsReady p.board c w = true := by
  constructor
  · intro h c w hallows
    rw [← h, CastlingRights.clean, CastlingRights.allows_ofFn, Bool.and_eq_true] at hallows
    exact hallows.2
  · intro h
    refine CastlingRights.ext_allows ?_
    intro c w
    rw [CastlingRights.clean, CastlingRights.allows_ofFn]
    cases hallows : p.rights.allows c w with
    | false => rfl
    | true => exact h c w hallows

theorem standsReady_iff {b : Board} {c : Color} {w : Wing} :
    CastlingRights.standsReady b c w = true ↔
      b.get (kingHome c) = some ⟨c, .officer .king⟩ ∧
        b.get (rookHome c w) = some ⟨c, .officer .rook⟩ := by
  rw [CastlingRights.standsReady, Bool.and_eq_true, beq_iff_eq, beq_iff_eq]

/-- King and rook stay ready if nothing changes on their two squares. -/
theorem standsReady_congr {b b' : Board} {c : Color} {w : Wing}
    (h : CastlingRights.standsReady b c w = true)
    (hking : b'.get (kingHome c) = b.get (kingHome c))
    (hrook : b'.get (rookHome c w) = b.get (rookHome c w)) :
    CastlingRights.standsReady b' c w = true := by
  rw [standsReady_iff] at h ⊢
  rw [hking, hrook]
  exact h

theorem rank_kingHome (c : Color) : (kingHome c).rank = c.backRank := rfl

theorem rank_rookHome (c : Color) (w : Wing) : (rookHome c w).rank = c.backRank := by
  cases w <;> rfl

theorem enPassantRank_ne_backRank (c d : Color) : c.enPassantRank ≠ d.backRank := by
  cases c <;> cases d <;> decide

/-- A step that takes away no king neither leaves nor reaches the square on which a king still
stands where it started: the side to move has not moved its own and has not captured the other. -/
theorem IsStep.ne_kingHome (hstep : p.IsStep source target) {c : Color}
    (hhome : p.get (kingHome c) = some ⟨c, .officer .king⟩)
    (hking : p.get (if c = p.turn then source else target) ≠ some ⟨c, .officer .king⟩) :
    source ≠ kingHome c ∧ target ≠ kingHome c := by
  by_cases hc : c = p.turn
  · rw [if_pos hc] at hking
    refine ⟨?_, ?_⟩
    · rintro rfl
      exact hking hhome
    · rintro rfl
      have hown := hstep.free
      rw [holdsOwn, hhome] at hown
      simp [hc] at hown
  · rw [if_neg hc] at hking
    refine ⟨?_, ?_⟩
    · rintro rfl
      obtain ⟨piece, hpiece, hcolor⟩ := hstep.own
      obtain rfl := Option.some.inj (hpiece.symm.trans hhome)
      exact hc hcolor
    · rintro rfl
      exact hking hhome

/-- A back rank stays as it is off the squares of a step. -/
theorem IsStep.get_boardAfterStep (hstep : p.IsStep source target) {c : Color} {s : Square}
    (hrank : s.rank = c.backRank) (hsource : source ≠ s) (htarget : target ≠ s) :
    (p.boardAfterStep source target promotion).get s = p.get s := by
  refine get_boardAfterStep_of_ne hsource htarget ?_
  intro htakes
  rw [hstep.enPassantRank htakes, hrank]
  exact enPassantRank_ne_backRank _ _

theorem HasCleanRights.step (hclean : p.HasCleanRights) (hstep : p.IsStep source target) :
    (p.play (.step source target promotion)).HasCleanRights := by
  rw [hasCleanRights_iff] at hclean ⊢
  intro c w hallows
  simp only [play, rightsAfterStep, CastlingRights.allows_ofFn, Bool.and_eq_true, bne_iff_ne, ne_eq,
    Bool.not_eq_true', beq_eq_false_iff_ne] at hallows
  obtain ⟨⟨⟨hright, hsource⟩, htarget⟩, hking⟩ := hallows
  have hready := hclean c w hright
  obtain ⟨hsourceKing, htargetKing⟩ := hstep.ne_kingHome (standsReady_iff.1 hready).1 hking
  exact standsReady_congr hready
    (hstep.get_boardAfterStep (rank_kingHome c) hsourceKing htargetKing)
    (hstep.get_boardAfterStep (rank_rookHome c w) hsource htarget)

/-- Castling changes nothing off the back rank of the side that castles. -/
theorem get_boardAfterCastling_of_rank {s : Square} (h : s.rank ≠ p.turn.backRank) (w : Wing) :
    (p.boardAfterCastling w).get s = p.get s := by
  have hne : ∀ t : Square, t.rank = p.turn.backRank → t ≠ s := by
    rintro t ht rfl
    exact h ht
  have hking := hne (kingHome p.turn) rfl
  have hrook := hne (rookHome p.turn w) (rank_rookHome _ w)
  have hkingCastled := hne (kingCastled p.turn w) (by cases w <;> rfl)
  have hrookCastled := hne (rookCastled p.turn w) (by cases w <;> rfl)
  simp only [boardAfterCastling, Board.get_set, if_neg hking, if_neg hrook, if_neg hkingCastled,
    if_neg hrookCastled]
  rfl

theorem HasCleanRights.castle (hclean : p.HasCleanRights) (wing : Wing) :
    (p.play (.castle wing)).HasCleanRights := by
  rw [hasCleanRights_iff] at hclean ⊢
  intro c w hallows
  simp only [play, rightsAfterCastling, CastlingRights.allows_ofFn, Bool.and_eq_true, bne_iff_ne,
    ne_eq] at hallows
  obtain ⟨hright, hc⟩ := hallows
  have hback : c.backRank ≠ p.turn.backRank := by
    revert hc
    cases c <;> cases p.turn <;> decide
  exact standsReady_congr (hclean c w hright)
    (get_boardAfterCastling_of_rank (by rwa [rank_kingHome]) wing)
    (get_boardAfterCastling_of_rank (by rwa [rank_rookHome]) wing)

/-- **What a text names keeps the castling rights clean.** -/
theorem HasCleanRights.play (hclean : p.HasCleanRights) {move : Move}
    (h : p.IsPlayableMove move) : (p.play move).HasCleanRights := by
  cases move with
  | step source target promotion =>
    have hlegal := h.resolve_right Move.noConfusion
    exact hclean.step (isStep_of_isPseudoLegal (Bool.and_eq_true_iff.1 hlegal).1)
  | castle wing => exact hclean.castle wing
  | pass => exact hclean

theorem hasCleanRights_initial : HasCleanRights .initial := by
  unfold HasCleanRights
  decide

end Position

/-! ## Positions after a number of moves -/

/-- The side to move after a number of moves. -/
def turnAfter (n : Nat) : Color := if n % 2 = 0 then .white else .black

theorem other_turnAfter (n : Nat) : (turnAfter n).other = turnAfter (n + 1) := by
  unfold turnAfter
  rcases Nat.mod_two_eq_zero_or_one n with h | h
  · rw [if_pos h, if_neg (by omega)]
    rfl
  · rw [if_neg (by omega), if_pos (by omega)]
    rfl

/-- What the number of moves says about the position that they lead to. -/
structure IsReachedAfter (n : Nat) (p : Position) : Prop where
  cleanRights : p.HasCleanRights
  turn : p.turn = turnAfter n
  moveNumber : p.moveNumber = n / 2 + 1
  halfmoves : p.halfmoves ≤ n

namespace IsReachedAfter

variable {n : Nat} {p : Position}

theorem initial : IsReachedAfter 0 .initial :=
  ⟨Position.hasCleanRights_initial, rfl, rfl, Nat.le_refl 0⟩

theorem nextMoveNumber (h : IsReachedAfter n p) : p.nextMoveNumber = (n + 1) / 2 + 1 := by
  have hturn := h.turn
  have hnumber := h.moveNumber
  unfold turnAfter at hturn
  unfold Position.nextMoveNumber
  split at hturn <;> rw [hturn] <;> simp only [hnumber] <;> omega

/-- **One move more.** -/
theorem play (h : IsReachedAfter n p) {move : Move} (hmove : p.IsPlayableMove move) :
    IsReachedAfter (n + 1) (p.play move) := by
  have hhalfmoves : p.halfmoves + 1 ≤ n + 1 := Nat.succ_le_succ h.halfmoves
  have hturn : p.turn.other = turnAfter (n + 1) := by rw [h.turn, other_turnAfter]
  refine ⟨h.cleanRights.play hmove, ?_, ?_, ?_⟩
  · cases move <;> exact hturn
  · cases move <;> exact h.nextMoveNumber
  · cases move with
    | step source target promotion =>
      show (if p.isIrreversible source target then 0 else p.halfmoves + 1) ≤ n + 1
      split
      · exact Nat.zero_le _
      · exact hhalfmoves
    | castle wing => exact hhalfmoves
    | pass => exact hhalfmoves

theorem makeMove (h : IsReachedAfter n p) {san : Text} {made : MoveMade}
    (hmade : Scoresheet.makeMove p san = .ok made) : IsReachedAfter (n + 1) made.position := by
  unfold Scoresheet.makeMove at hmade
  split at hmade
  · rename_i move hmove
    obtain rfl := Except.ok.inj hmade
    exact h.play (Position.isPlayableMove_of_resolve? hmove)
  · simp at hmade

/-- **A replay reaches a position after each of its moves.** -/
theorem of_replay {sans : List Text} {i : Nat} {made : MoveMade} (h : IsReachedAfter n p)
    (hmade : (replay p sans)[i]? = some made) : IsReachedAfter (n + i + 1) made.position := by
  induction sans generalizing p n i with
  | nil => simp [replay] at hmade
  | cons san sans ih =>
    rw [replay] at hmade
    split at hmade
    · rename_i first hfirst
      cases i with
      | zero =>
        obtain rfl : first = made := by simpa using hmade
        exact h.makeMove hfirst
      | succ i =>
        have hrest := ih (h.makeMove hfirst) (by simpa using hmade)
        rwa [show n + 1 + i + 1 = n + (i + 1) + 1 by omega] at hrest
    · simp at hmade

end IsReachedAfter

end Scoresheet.Chess
