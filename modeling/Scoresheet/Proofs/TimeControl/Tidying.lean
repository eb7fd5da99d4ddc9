import Scoresheet.Proofs.Text.Replacing
import Scoresheet.Proofs.TimeControl.Counts
import Scoresheet.TimeControl.Tidy

/-!
# What tidying does to a value

A value without white space, quotation marks and separators to be mapped stays as it is
(`tidy_of_plain`). Whatever is tidied, no run of digits becomes longer (`of_tidy`), so
tidying has an answer if there are only short numerals, and what is remarked upon it is neither an
interpretation nor an overflow.
-/

namespace Scoresheet

open Text

namespace TimeControl

variable {t raw : Text}

/-! ## Values that stay as they are -/

theorem isEnclosed_of_head {c : Char} (h : isQuote c = false) (t : Text) :
    isEnclosed (c :: t) = false := by
  simp [isEnclosed, h]

theorem stripQuotes_of_not_isEnclosed (h : isEnclosed t = false) : stripQuotes t = t := by
  rw [stripQuotes, if_neg (by simp [h])]

theorem hasLooseApostrophe_of_not_mem (h : '\'' ∉ t) (before : Option Char) :
    hasLooseApostrophe before t = false := by
  induction t generalizing before with
  | nil => rfl
  | cons c t ih =>
    obtain ⟨hc, ht⟩ := not_or.1 (mt List.mem_cons.2 h)
    rw [hasLooseApostrophe, ih ht, beq_eq_false_iff_ne.2 (Ne.symm hc), Bool.false_and,
      Bool.false_or]

theorem hasAmbiguousQuote_of_not_mem (hq : '"' ∉ t) (ha : '\'' ∉ t) :
    hasAmbiguousQuote t = false := by
  rw [hasAmbiguousQuote, hasLooseApostrophe_of_not_mem ha, Bool.or_false]
  simpa using hq

theorem ifChanged_self (t : Text) (remark : Remark) : ifChanged t t remark = [] := by
  rw [ifChanged, beq_self_eq_true, if_pos rfl]

theorem unwrap_eq (htrim : trim t = t) (henclosed : isEnclosed t = false)
    (hquote : hasAmbiguousQuote t = false) : unwrap t = ⟨t, []⟩ := by
  simp [unwrap, htrim, stripQuotes_of_not_isEnclosed henclosed, henclosed, hquote, ifChanged_self]

theorem map_plusLike (hbar : '|' ∉ t) (hline : '_' ∉ t) : t.map plusLike = t := by
  have hkeep : ∀ c ∈ t, plusLike c = id c := by
    intro c hc
    have hbar' : c ≠ '|' := fun h => hbar (h ▸ hc)
    have hline' : c ≠ '_' := fun h => hline (h ▸ hc)
    simp [plusLike, hbar', hline']
  rw [List.map_congr_left hkeep, List.map_id]

/-- A space stands in each pattern of operators. -/
theorem space_mem_of_mem_operatorSpacing {pair : String × String} (h : pair ∈ operatorSpacing) :
    ' ' ∈ pair.1.toList := by
  have hall : operatorSpacing.all (fun pair => pair.1.toList.contains ' ') = true := by decide
  simpa using List.all_eq_true.1 hall pair h

theorem closeUp_eq (hspace : ' ' ∉ t) (hbar : '|' ∉ t) (hline : '_' ∉ t) : closeUp t = ⟨t, []⟩ := by
  have hspaced : replaceEach operatorSpacing t = t :=
    replaceEach_of_not_mem fun _ hpair => ⟨' ', space_mem_of_mem_operatorSpacing hpair, hspace⟩
  simp [closeUp, hspaced, map_plusLike hbar hline, ifChanged_self]

theorem stripApostrophe_of_getLast {u : Text} {c : Char} (hc : c ≠ '\'') :
    stripApostrophe (u ++ [c]) = .ok ⟨u ++ [c], []⟩ := by
  unfold stripApostrophe
  rw [List.reverse_append, List.reverse_singleton, List.singleton_append]
  split
  · rename_i heq
    exact absurd (List.cons.inj heq).1 hc
  · rename_i heq
    exact absurd (List.cons.inj heq).1 hc
  · rfl

/-- The steps of tidying put together. -/
theorem tidy_eq {plain closed final : Tidied} (hplain : unwrap raw = plain)
    (hclosed : closeUp plain.text = closed) (hfinal : stripApostrophe closed.text = .ok final) :
    tidy raw = .ok ⟨final.text, plain.remarks ++ closed.remarks ++ final.remarks⟩ := by
  unfold tidy
  simp only [hplain, hclosed, hfinal]
  rfl

/-- A character that tidying passes over. -/
def isPlain (c : Char) : Bool := !isBlank c && !isQuote c && c != '|' && c != '_'

theorem isBlank_of_isPlain {c : Char} (h : isPlain c = true) : isBlank c = false := by
  simp only [isPlain, Bool.and_eq_true, Bool.not_eq_true'] at h
  exact h.1.1.1

theorem isQuote_of_isPlain {c : Char} (h : isPlain c = true) : isQuote c = false := by
  simp only [isPlain, Bool.and_eq_true, Bool.not_eq_true'] at h
  exact h.1.1.2

theorem isPlain_of_isAsciiDigit {c : Char} (h : isAsciiDigit c = true) : isPlain c = true :=
  of_digits (P := fun c => isPlain c = true) (by decide) h

/-- A value without white space and separators is tidy up to an apostrophe at its end, if the
apostrophes in it stand behind digits. -/
theorem tidy_of_visible {final : Tidied} (hne : t ≠ [])
    (h : ∀ c ∈ t, isPlain c = true ∨ c = '\'') (henclosed : isEnclosed t = false)
    (hloose : hasLooseApostrophe none t = false) (hfinal : stripApostrophe t = .ok final) :
    tidy t = .ok final := by
  have hnot : ∀ {c : Char}, isPlain c = false → c ≠ '\'' → c ∉ t := by
    intro c hc hne hmem
    rcases h c hmem with hplain | hquote
    · rw [hplain] at hc
      exact Bool.noConfusion hc
    · exact hne hquote
  have hvisible : ∀ c ∈ t, isBlank c = false := by
    intro c hc
    rcases h c hc with hplain | rfl
    · exact isBlank_of_isPlain hplain
    · decide
  have hquote : hasAmbiguousQuote t = false := by
    have hdouble : '"' ∉ t := hnot (by decide) (by decide)
    simpa [hasAmbiguousQuote, hloose] using hdouble
  have hplain := unwrap_eq (isTight_of_visible hne hvisible).trim henclosed hquote
  have hclosed := closeUp_eq (hnot (c := ' ') (by decide) (by decide))
    (hnot (c := '|') (by decide) (by decide)) (hnot (c := '_') (by decide) (by decide))
  exact tidy_eq hplain hclosed hfinal

/-- **A value of plain characters** is tidy. -/
theorem tidy_of_plain (hne : t ≠ []) (h : ∀ c ∈ t, isPlain c = true) : tidy t = .ok ⟨t, []⟩ := by
  have hquote : ∀ c ∈ t, isQuote c = false := fun c hc => isQuote_of_isPlain (h c hc)
  have hapostrophe : '\'' ∉ t := fun hmem => absurd (hquote '\'' hmem) (by decide)
  have henclosed : isEnclosed t = false := by
    obtain ⟨c, u, rfl⟩ := List.exists_cons_of_ne_nil hne
    exact isEnclosed_of_head (hquote c List.mem_cons_self) u
  have hlast : stripApostrophe t = .ok ⟨t, []⟩ := by
    obtain ⟨u, c, rfl⟩ := List.eq_nil_or_concat t |>.resolve_left hne
    rw [List.concat_eq_append] at hapostrophe ⊢
    exact stripApostrophe_of_getLast fun hc => hapostrophe (by simp [hc])
  exact tidy_of_visible hne (fun c hc => Or.inl (h c hc)) henclosed
    (hasLooseApostrophe_of_not_mem hapostrophe none) hlast

/-! ## Runs of digits -/

theorem infix_inner (t : Text) : inner t <:+: t := by
  have htail : t.tail <:+ t := List.tail_suffix t
  exact (List.dropLast_prefix t.tail).isInfix.trans htail.isInfix

theorem infix_stripQuotes (t : Text) : stripQuotes t <:+: t := by
  fun_induction stripQuotes t with
  | case1 t _ ih => exact (ih.trans (isInfix_trim _)).trans (infix_inner t)
  | case2 t => exact List.infix_rfl

theorem hasLongRun_of_unwrap (h : HasLongRun (unwrap raw).text) : HasLongRun raw :=
  h.mono ((infix_stripQuotes (trim raw)).trans (isInfix_trim raw))

theorem hasLongRun_of_operatorSpacing {pairs : List (String × String)}
    (hpairs : pairs ⊆ operatorSpacing) (h : HasLongRun (replaceEach pairs t)) : HasLongRun t := by
  have hall : ∀ pair ∈ operatorSpacing, IsPatch pair.2.toList := by decide
  exact hasLongRun_of_replaceEach (fun pair hpair => hall pair (hpairs hpair)) h

theorem plusSpacing_subset : plusSpacing ⊆ operatorSpacing := by
  rw [operatorSpacing]
  exact List.subset_append_left _ _

theorem patched_plusLike (t : Text) : Patched t (t.map plusLike) := by
  refine patched_map (fun c => ?_) t
  unfold plusLike
  split
  · exact Or.inr (by decide)
  · exact Or.inl rfl

theorem hasLongRun_of_closeUp (h : HasLongRun (closeUp t).text) : HasLongRun t := by
  unfold closeUp at h
  dsimp only at h
  have hall : operatorSpacing ⊆ operatorSpacing := List.Subset.refl operatorSpacing
  split at h <;> dsimp only at h
  · exact hasLongRun_of_operatorSpacing hall h
  · have hmapped := hasLongRun_of_operatorSpacing plusSpacing_subset h
    have hspaced := (patched_plusLike _).hasLongRun hmapped
    exact hasLongRun_of_operatorSpacing hall hspaced

/-- Stripping an apostrophe leaves the text or its beginning. -/
theorem stripApostrophe_cases {final : Tidied} (h : stripApostrophe t = .ok final) :
    final = ⟨t, []⟩ ∨ final = ⟨t.dropLast, [.strippedApostrophe]⟩ := by
  unfold stripApostrophe at h
  split at h
  · exact Or.inl (Except.ok.inj h).symm
  · obtain ⟨standard, _, h⟩ := bind_eq_ok.1 h
    cases standard with
    | true => exact Or.inr (Except.ok.inj h).symm
    | false => exact Or.inl (Except.ok.inj h).symm
  · exact Or.inl (Except.ok.inj h).symm

theorem answers_stripApostrophe (h : ¬HasLongRun t) : Answers (stripApostrophe t) := by
  unfold stripApostrophe
  split
  · exact answers_ok _
  · have hrest : ¬HasLongRun t.dropLast :=
      fun hlong => h (hlong.mono (List.dropLast_prefix t).isInfix)
    refine (answers_isStandard hrest).bind fun standard _ => ?_
    cases standard <;> exact answers_ok _
  · exact answers_ok _

/-- A remark that tidying makes. -/
def Remark.IsOnTidying (remark : Remark) : Prop :=
  remark ∈ [.trimmed, .strippedQuotes, .ambiguousQuotes, .operatorSpacing, .mappedSeparator,
    .strippedApostrophe]

theorem isOnTidying_of_mem_ifChanged {before after : Text} {made remark : Remark}
    (hmade : Remark.IsOnTidying made) (h : remark ∈ ifChanged before after made) :
    Remark.IsOnTidying remark := by
  unfold ifChanged at h
  split at h
  · simp at h
  · rwa [List.mem_singleton.1 h]

theorem isOnTidying_unwrap {remark : Remark} (h : remark ∈ (unwrap raw).remarks) :
    Remark.IsOnTidying remark := by
  rw [unwrap, List.mem_append, List.mem_append] at h
  rcases h with (h | h) | h
  · exact isOnTidying_of_mem_ifChanged (by simp [Remark.IsOnTidying]) h
  · split at h
    · simp [Remark.IsOnTidying, List.mem_singleton.1 h]
    · simp at h
  · split at h
    · simp [Remark.IsOnTidying, List.mem_singleton.1 h]
    · simp at h

theorem isOnTidying_closeUp {remark : Remark} (h : remark ∈ (closeUp t).remarks) :
    Remark.IsOnTidying remark := by
  have hspacing : Remark.IsOnTidying .operatorSpacing := by simp [Remark.IsOnTidying]
  unfold closeUp at h
  dsimp only at h
  split at h
  · exact isOnTidying_of_mem_ifChanged hspacing h
  · rw [List.mem_append, List.mem_append] at h
    rcases h with (h | h) | h
    · exact isOnTidying_of_mem_ifChanged hspacing h
    · simp [Remark.IsOnTidying, List.mem_singleton.1 h]
    · exact isOnTidying_of_mem_ifChanged hspacing h

/-- What a value is when it is tidied. -/
theorem of_tidy {tidied : Tidied} (h : tidy raw = .ok tidied) :
    (HasLongRun tidied.text → HasLongRun raw) ∧
      ∀ remark ∈ tidied.remarks, Remark.IsOnTidying remark := by
  unfold tidy at h
  dsimp only at h
  obtain ⟨final, hfinal, h⟩ := bind_eq_ok.1 h
  rw [← Except.ok.inj h]
  constructor
  · intro hlong
    refine hasLongRun_of_unwrap (hasLongRun_of_closeUp ?_)
    rcases stripApostrophe_cases hfinal with rfl | rfl <;> dsimp only at hlong
    · exact hlong
    · exact hlong.mono (List.dropLast_prefix _).isInfix
  · intro remark hremark
    rw [List.mem_append, List.mem_append] at hremark
    rcases hremark with (hremark | hremark) | hremark
    · exact isOnTidying_unwrap hremark
    · exact isOnTidying_closeUp hremark
    · rcases stripApostrophe_cases hfinal with rfl | rfl
      · simp at hremark
      · simp [Remark.IsOnTidying, List.mem_singleton.1 hremark]

/-- **Tidying has an answer** if there are only short numerals. -/
theorem answers_tidy (h : ¬HasLongRun raw) : Answers (tidy raw) := by
  have hclosed : ¬HasLongRun (closeUp (unwrap raw).text).text :=
    fun hlong => h (hasLongRun_of_unwrap (hasLongRun_of_closeUp hlong))
  exact (answers_stripApostrophe hclosed).bind fun _ _ => answers_ok _

end TimeControl

end Scoresheet
