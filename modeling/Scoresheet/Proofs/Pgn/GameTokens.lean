import Scoresheet.Proofs.Pgn.Tokens

/-!
# Games as tokens

A game whose tokens can all be converted reports its tags and then its tokens one after another
(`gameFrom_of_not_hasOversizedToken`); what may be wrong with it is a malformed tag line or a
comment that is not closed. A game is broken off exactly if one of its tokens is an oversized
annotation (`isOversized_gameFrom`).
-/

namespace Scoresheet.Pgn

open Text

/-! ## Tokens that can be converted -/

namespace Token

/-- The token is a word that stops the scan. -/
def IsOversized : Token → Prop
  | word w => IsOversizedWord w
  | _ => False

/-- The events that a token reports. -/
def events (token : Token) : List Event :=
  match token.report with
  | .ok events => events
  | .error _ => []

theorem report_error_iff (token : Token) :
    (∃ n, token.report = .error n) ↔ token.IsOversized := by
  cases token with
  | word w =>
    rw [IsOversized, ← wordEvents_error_iff, report]
    cases hm : outcomeMarker? w with
    | some marker =>
      have hnot : ¬IsOversizedWord w := by
        rintro ⟨number, numeral, rfl, _⟩
        rw [outcomeMarker?_eq_none_of_mem (c := '$') (by simp) (by decide)] at hm
        cases hm
      rw [wordEvents_error_iff]
      exact iff_of_false (by simp) hnot
    | none => rfl
  | _ => exact iff_of_false (by simp [report]) id

theorem report_of_not_isOversized {token : Token} (h : ¬token.IsOversized) :
    token.report = .ok token.events := by
  rw [← report_error_iff] at h
  unfold events
  cases hreport : token.report with
  | ok events => rfl
  | error n => exact absurd ⟨n, hreport⟩ h

end Token

/-- Tokens that can be converted are all reported. -/
theorem reportAll_of_not_isOversized {tokens : List Token}
    (h : ∀ token ∈ tokens, ¬token.IsOversized) :
    reportAll tokens = (tokens.flatMap Token.events, none) := by
  induction tokens with
  | nil => rfl
  | cons token tokens ih =>
    obtain ⟨hfirst, hrest⟩ := List.forall_mem_cons.1 h
    rw [reportAll, Token.report_of_not_isOversized hfirst, ih hrest, List.flatMap_cons]

/-- The first token that cannot be converted ends the report. -/
theorem exists_reportAll_iff (tokens : List Token) :
    (∃ n, (reportAll tokens).2 = some n) ↔ ∃ token ∈ tokens, token.IsOversized := by
  induction tokens with
  | nil => simp [reportAll]
  | cons token tokens ih =>
    simp only [List.mem_cons, exists_eq_or_imp]
    rw [← ih, ← Token.report_error_iff, reportAll]
    cases token.report with
    | error n => simp
    | ok events => simp

/-! ## Games -/

/-- The tokens of the game whose text starts at the first of the lines. -/
def gameTokens (lines : List Line) : MovetextTokens := movetextTokens .start (readTags lines).body

/-- Some token of the game cannot be converted. -/
def HasOversizedToken (lines : List Line) : Prop :=
  ∃ token ∈ (gameTokens lines).tokens, token.IsOversized

/-- What is wrong with a game whose tokens can be converted. -/
def faultOf (lines : List Line) : Option ReadError :=
  gameError (readTags lines).fault (gameTokens lines).ending

/-- The events of a game whose tokens can be converted. -/
def eventsOf (lines : List Line) : List Event :=
  .beginTags :: (readTags lines).tags.map (fun tag => .tag tag.key tag.value)
    ++ .beginMovetext :: (gameTokens lines).tokens.flatMap Token.events
    ++ (if (faultOf lines).isNone then [.endGame] else [])

/-- No movetext is cut into tokens up to an oversized annotation. -/
theorem ending_movetextTokens_ne (lines : List Line) : ∀ (s : Cursor) (n : OversizedNumeral),
    (movetextTokens s lines).ending ≠ .oversizedNag n := by
  induction lines with
  | nil =>
    intro s n
    rw [movetextTokens]
    cases s.comment <;> simp
  | cons line lines ih =>
    intro s n
    rw [movetextTokens]
    split
    · simp
    · split
      · exact ih s n
      · rcases lineTokens s [] line with ⟨tokens, s' | rest⟩
        · exact ih s' n
        · simp

theorem faultOf_ne (lines : List Line) (n : OversizedNumeral) :
    faultOf lines ≠ some (.oversizedNag n) := by
  unfold faultOf gameError
  cases h : (gameTokens lines).ending with
  | complete => cases (readTags lines).fault <;> simp
  | unterminatedComment => simp
  | oversizedNag m => exact absurd h (ending_movetextTokens_ne _ _ m)

/-- A movetext whose tokens can be converted reports them all. -/
theorem scanLines_of_not_hasOversizedToken {lines : List Line} (h : ¬HasOversizedToken lines) :
    scanLines .start (readTags lines).body = ⟨(gameTokens lines).tokens.flatMap Token.events,
      (gameTokens lines).ending, (gameTokens lines).rest⟩ := by
  have hall : ∀ token ∈ (gameTokens lines).tokens, ¬token.IsOversized :=
    fun token hmem hover => h ⟨token, hmem, hover⟩
  have hscan := scanLines_eq (readTags lines).body .start
  have hreport := reportAll_of_not_isOversized hall
  rw [gameTokens] at hreport
  simp only [MovetextTokens.IsReportedBy, hreport] at hscan
  obtain ⟨hevents, hending, hrest⟩ := hscan
  rw [gameTokens, ← hevents, ← hending, ← hrest]

/-- **A game is reported token by token.** -/
theorem gameFrom_of_not_hasOversizedToken {lines : List Line} (h : ¬HasOversizedToken lines) :
    (gameFrom lines).1 = ⟨eventsOf lines, faultOf lines⟩ := by
  rw [gameFrom]
  simp only [scanLines_of_not_hasOversizedToken h]
  rfl

theorem isOversized_gameFrom (lines : List Line) :
    (gameFrom lines).1.isOversized = true ↔ HasOversizedToken lines := by
  constructor
  · intro hover
    by_contra hnot
    rw [gameFrom_of_not_hasOversizedToken hnot, Transcript.isOversized] at hover
    split at hover
    · rename_i n he
      exact faultOf_ne lines n he
    · simp at hover
  · intro htoken
    obtain ⟨n, hn⟩ := (exists_reportAll_iff _).2 htoken
    have hscan := scanLines_eq (readTags lines).body .start
    rw [gameTokens] at hn
    simp only [MovetextTokens.IsReportedBy, hn] at hscan
    rw [gameFrom]
    simp only [hscan.2, gameError, Transcript.isOversized]

end Scoresheet.Pgn
