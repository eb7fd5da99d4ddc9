import Scoresheet.Proofs.Pgn.GameTokens
import Scoresheet.Proofs.Pgn.Nesting
import Scoresheet.Proofs.Record.DigitRuns

/-!
# Texts without long numerals

The words of a movetext and the values of its tags are cut out of single lines, and no game is read
of lines but those that were given. So if no line has a long run of digits, no numeral of any game
is oversized (`not_isOversized_of_mem_readGames`).
-/

namespace Scoresheet

open Text

namespace Pgn

/-! ## Lines -/

/-- Some line has a long run of digits. -/
def HaveLongRun (lines : List Line) : Prop := ∃ line ∈ lines, HasLongRun line

theorem haveLongRun_cons (line : Line) (lines : List Line) :
    HaveLongRun (line :: lines) ↔ HasLongRun line ∨ HaveLongRun lines := by
  unfold HaveLongRun
  exact List.exists_mem_cons_iff _ _ _

/-! ## Tag sections -/

theorem haveLongRun_of_readTags_tags {lines : List Line} {tag : Tag}
    (htag : tag ∈ (readTags lines).tags) (hlong : HasLongRun tag.value) : HaveLongRun lines := by
  fun_induction readTags lines with
  | case1 => simp at htag
  | case2 line lines hopens rest tags hline ih =>
    rw [haveLongRun_cons]
    rcases List.mem_append.1 htag with htag | htag
    · have htrimmed := Tag.hasLongRun_of_readLine? hline htag hlong
      exact Or.inl (htrimmed.mono (isInfix_trim line))
    · exact Or.inr (ih htag)
  | case3 line lines hopens rest hline ih => exact (haveLongRun_cons _ _).2 (Or.inr (ih htag))
  | case4 line lines hopens hpassed ih => exact (haveLongRun_cons _ _).2 (Or.inr (ih htag))
  | case5 => simp at htag

theorem haveLongRun_of_readTags_body {lines : List Line}
    (h : HaveLongRun (readTags lines).body) : HaveLongRun lines := by
  obtain ⟨line, hline, hlong⟩ := h
  rw [body_readTags] at hline
  exact ⟨line, (List.dropWhile_suffix precedesMovetext).subset hline, hlong⟩

/-! ## Words -/

theorem IsOversizedWord.hasLongRun {w : Text} (h : IsOversizedWord w) : HasLongRun w := by
  obtain ⟨number, numeral, rfl, _, _, hnumeral, hlength⟩ := h
  have hlong : HasLongRun numeral := IsOversized.hasLongRun ⟨hnumeral, hlength⟩
  have hsuffix : numeral <:+ number ++ '$' :: numeral :=
    (List.suffix_cons '$' numeral).trans (List.suffix_append number _)
  exact hlong.mono hsuffix.isInfix

theorem Cursor.eq_of_mem_passWord {s : Cursor} {word w : Text}
    (h : Token.word w ∈ (s.passWord word).1) : w = word := by
  unfold passWord at h
  split at h
  · simpa using h
  · simp at h

theorem Cursor.not_mem_passBreak {s : Cursor} {c : Char} {w : Text} :
    Token.word w ∉ s.passBreak c := by
  unfold passBreak
  split <;> simp

/-- A word is a part of its line. -/
theorem infix_of_mem_lineTokens {w : Text} (line : Line) : ∀ {s : Cursor} {word : Text},
    Token.word w ∈ (lineTokens s word line).tokens → w <:+: word.reverse ++ line := by
  induction line with
  | nil =>
    intro s word h
    rw [lineTokens] at h
    rw [Cursor.eq_of_mem_passWord h, List.append_nil]
  | cons c cs ih =>
    intro s word h
    have hrest : ∀ {s : Cursor}, Token.word w ∈ (lineTokens s [] cs).tokens →
        w <:+: word.reverse ++ c :: cs := by
      intro s h
      have hcs : cs <:+ word.reverse ++ c :: cs :=
        (List.suffix_cons c cs).trans (List.suffix_append _ _)
      exact (ih h).trans hcs.isInfix
    have hword : ∀ {s : Cursor}, Token.word w ∈ (s.passWord word.reverse).1 →
        w <:+: word.reverse ++ c :: cs := by
      intro s h
      rw [Cursor.eq_of_mem_passWord h]
      exact (List.prefix_append _ _).isInfix
    rw [lineTokens] at h
    cases hcomment : s.comment with
    | some body =>
      simp only [hcomment] at h
      split at h
      · rcases List.mem_append.1 h with h | h
        · split at h <;> simp at h
        · exact hrest h
      · exact hrest h
    | none =>
      simp only [hcomment] at h
      split at h
      · simp at h
      · split at h
        · split at h
          · exact hword h
          · rcases List.mem_append.1 h with h | h
            · rcases List.mem_append.1 h with h | h
              · exact hword h
              · exact absurd h Cursor.not_mem_passBreak
            · exact hrest h
        · have hlonger := ih h
          rw [List.reverse_cons, List.append_assoc] at hlonger
          exact hlonger

theorem haveLongRun_of_mem_movetextTokens {token : Token} (htoken : token.IsOversized)
    (lines : List Line) : ∀ {s : Cursor},
    token ∈ (movetextTokens s lines).tokens → HaveLongRun lines := by
  obtain ⟨w, rfl, hw⟩ : ∃ w, token = .word w ∧ IsOversizedWord w := by
    cases token with
    | word w => exact ⟨w, rfl, htoken⟩
    | _ => exact htoken.elim
  induction lines with
  | nil =>
    intro s h
    rw [movetextTokens] at h
    split at h
    · simp at h
    · split at h <;> simp at h
  | cons line lines ih =>
    intro s h
    rw [haveLongRun_cons]
    have hline : ∀ {tokens : List Token} {stop : LineEnd},
        lineTokens s [] line = ⟨tokens, stop⟩ → Token.word w ∈ tokens → HasLongRun line := by
      intro tokens stop hscan hmem
      have htokens : Token.word w ∈ (lineTokens s [] line).tokens := by
        rw [hscan]
        exact hmem
      exact hw.hasLongRun.mono (infix_of_mem_lineTokens line htokens)
    rw [movetextTokens] at h
    split at h
    · simp at h
    · split at h
      · exact Or.inr (ih h)
      · rcases hscan : lineTokens s [] line with ⟨tokens, s' | rest⟩
        · rw [hscan] at h
          rcases List.mem_append.1 h with h | h
          · exact Or.inl (hline hscan h)
          · exact Or.inr (ih h)
        · rw [hscan] at h
          exact Or.inl (hline hscan h)

/-- **An oversized annotation** is a long run of digits in a line of its game. -/
theorem haveLongRun_of_hasOversizedToken {lines : List Line} (h : HasOversizedToken lines) :
    HaveLongRun lines := by
  obtain ⟨token, hmem, hover⟩ := h
  exact haveLongRun_of_readTags_body (haveLongRun_of_mem_movetextTokens hover _ hmem)

/-! ## Lines that are left -/

theorem haveLongRun_of_rest_scanLines (lines : List Line) : ∀ {s : Cursor},
    HaveLongRun (scanLines s lines).rest → HaveLongRun lines := by
  induction lines with
  | nil =>
    intro s h
    rw [scanLines] at h
    split at h <;> exact h
  | cons line lines ih =>
    intro s h
    rw [scanLines] at h
    split at h
    · exact h
    · rw [haveLongRun_cons]
      split at h
      · exact Or.inr (ih h)
      · rcases hscan : scanLine s [] line with ⟨events, s' | rest | n⟩
        · rw [hscan] at h
          exact Or.inr (ih h)
        · rw [hscan] at h
          rcases (haveLongRun_cons _ _).1 h with h | h
          · exact Or.inl (h.mono (rest_of_nextGame hscan).1.isInfix)
          · exact Or.inr h
        · rw [hscan] at h
          exact Or.inr h

/-- The lines behind a game have no longer runs of digits than all lines. -/
theorem haveLongRun_of_rest_readGame {lines rest : List Line} {t : Transcript}
    (h : readGame lines = some (t, rest)) (hrest : HaveLongRun rest) : HaveLongRun lines := by
  have hgame := (gameFrom_of_readGame h).1
  rw [gameFrom, Prod.mk.injEq] at hgame
  rw [← hgame.2] at hrest
  exact haveLongRun_of_readTags_body (haveLongRun_of_rest_scanLines _ hrest)

/-! ## Headers of a game -/

/-- The only tags of a game are those of its tag section. -/
theorem mem_tags_of_mem_gameFrom {lines : List Line} {key value : Text}
    (h : Event.tag key value ∈ (gameFrom lines).1.events) :
    ⟨key, value⟩ ∈ (readTags lines).tags := by
  have hbody := ofMovetext_scanLines (readTags lines).body
  rw [gameFrom] at h
  rcases List.mem_append.1 h with h | h
  · rcases List.mem_append.1 h with h | h
    · rcases List.mem_cons.1 h with h | h
      · cases h
      · obtain ⟨tag, htag, he⟩ := List.mem_map.1 h
        obtain ⟨rfl, rfl⟩ := Event.tag.inj he
        exact htag
    · rcases List.mem_cons.1 h with h | h
      · cases h
      · exact absurd (hbody _ h) (by simp [Event.isOfMovetext])
  · split at h <;> simp at h

end Pgn

/-- Headers hold what they held before or have heard of. -/
theorem Headers.mem_or_mem_of_mem_hear {tag : Pgn.Tag} (events : List Pgn.Event) :
    ∀ {h : Headers}, tag ∈ h.hear events →
      tag ∈ h ∨ Pgn.Event.tag tag.key tag.value ∈ events := by
  induction events with
  | nil => exact fun h => Or.inl h
  | cons e events ih =>
    intro h hmem
    have hlater : ∀ {g : Headers}, tag ∈ g.hear events →
        tag ∈ g ∨ Pgn.Event.tag tag.key tag.value ∈ e :: events :=
      fun hg => (ih hg).imp_right (List.mem_cons_of_mem e)
    cases e with
    | tag key value =>
      rcases hlater (g := h.add ⟨key, value⟩) hmem with hadded | hevent
      · unfold add at hadded
        split at hadded
        · rcases List.mem_append.1 hadded with hadded | hadded
          · exact Or.inl hadded
          · rw [List.mem_singleton.1 hadded]
            exact Or.inr List.mem_cons_self
        · exact Or.inl hadded
      · exact Or.inr hevent
    | _ => exact hlater hmem

namespace Pgn

theorem haveLongRun_of_isOversized_headers {lines : List Line}
    (h : (gameFrom lines).1.headers.IsOversized) : HaveLongRun lines := by
  obtain ⟨tag, htag, hlong⟩ := exists_hasLongRun_of_isOversized h
  rcases Headers.mem_or_mem_of_mem_hear _ htag with hnone | hevent
  · simp at hnone
  · exact haveLongRun_of_readTags_tags (mem_tags_of_mem_gameFrom hevent) hlong

/-- **Without long runs of digits** there is no oversized numeral in any game. -/
theorem not_isOversized_of_mem_readGames {lines : List Line} (hlines : ¬HaveLongRun lines) :
    ∀ t ∈ readGames lines, t.isOversized = false ∧ ¬t.headers.IsOversized := by
  induction hn : remaining lines using Nat.strongRecOn generalizing lines with
  | ind n ih =>
    intro t ht
    cases hread : readGame lines with
    | none =>
      rw [readGames_of_none hread] at ht
      simp at ht
    | some r =>
      obtain ⟨first, rest⟩ := r
      rw [readGames_of_some hread] at ht
      rcases List.mem_cons.1 ht with rfl | ht
      · have hgame : (gameFrom lines).1 = t := by rw [(gameFrom_of_readGame hread).1]
        rw [← hgame]
        constructor
        · rw [← Bool.not_eq_true, isOversized_gameFrom]
          exact fun hover => hlines (haveLongRun_of_hasOversizedToken hover)
        · exact fun hover => hlines (haveLongRun_of_isOversized_headers hover)
      · split at ht
        · simp at ht
        · have hless : remaining rest < n := hn ▸ remaining_readGame_lt hread
          have hshort : ¬HaveLongRun rest :=
            fun hrest => hlines (haveLongRun_of_rest_readGame hread hrest)
          exact ih _ hless hshort rfl t ht

end Pgn

end Scoresheet
