import Mathlib.Data.List.Infix
import Scoresheet.Proofs.Record.Existence
import Scoresheet.Proofs.Text.Joining

/-!
# Runs of digits

A numeral of too many digits is a long run of digits in the text that it was read from. None of the
ways in which a header value is cut out of its line makes a run of digits longer: the value is
unescaped and trimmed, and a date is cut at dots and hyphens. So there are no oversized numerals in
what is read of a text without long runs.
-/

namespace Scoresheet

open Text Pgn

namespace Text

/-- A text of ASCII digits only. -/
def AllDigits (t : Text) : Prop := ∀ c ∈ t, isAsciiDigit c = true

/-- A run of digits in the text is longer than what is converted. -/
def HasLongRun (t : Text) : Prop := ∃ run, run <:+: t ∧ AllDigits run ∧ maxDigits < run.length

variable {run t u : Text}

theorem HasLongRun.mono (h : HasLongRun t) (htu : t <:+: u) : HasLongRun u := by
  obtain ⟨run, hrun, hdigits, hlength⟩ := h
  exact ⟨run, hrun.trans htu, hdigits, hlength⟩

theorem allDigits_of_isNumeral (h : isNumeral t = true) : AllDigits t :=
  fun _ hc => isAsciiDigit_of_isNumeral h hc

/-- An oversized numeral is a long run. -/
theorem IsOversized.hasLongRun (h : t.IsOversized) : HasLongRun t :=
  ⟨t, List.infix_rfl, allDigits_of_isNumeral h.1, h.2⟩

theorem not_hasLongRun_of_length_le (h : t.length ≤ maxDigits) : ¬HasLongRun t := by
  rintro ⟨run, hrun, _, hlength⟩
  have hle := hrun.length_le
  omega

theorem isInfix_trim (t : Text) : trim t <:+: t := by
  have hleft : trimLeft t <:+ t := List.dropWhile_suffix isBlank
  exact (isPrefix_trimRight (trimLeft t)).isInfix.trans hleft.isInfix

/-! ## Digits and other characters -/

/-- No run of digits starts with another character. -/
theorem AllDigits.eq_nil_of_prefix {c : Char} (h : AllDigits run) (hc : isAsciiDigit c = false)
    (hrun : run <+: c :: t) : run = [] := by
  cases run with
  | nil => rfl
  | cons d run =>
    obtain ⟨rfl, _⟩ := List.cons_prefix_cons.1 hrun
    rw [h d List.mem_cons_self] at hc
    exact Bool.noConfusion hc

theorem AllDigits.of_cons {c : Char} (h : AllDigits (c :: run)) : AllDigits run :=
  fun d hd => h d (List.mem_cons_of_mem _ hd)

/-- Replacing a character by one that is no digit makes no run longer. -/
theorem infix_of_infix_replaceChar {old new : Char} (hnew : isAsciiDigit new = false)
    (hdigits : AllDigits run) (h : run <:+: replaceChar old new t) : run <:+: t := by
  obtain ⟨before, after, h⟩ := h
  obtain ⟨front, back, rfl, hfront, _⟩ := List.map_eq_append_iff.1 h.symm
  obtain ⟨before', run', rfl, _, hrun⟩ := List.map_eq_append_iff.1 hfront
  have hsame : run' = run := by
    have hkeep : ∀ c ∈ run', (if c = old then new else c) = id c := by
      intro c hc
      refine if_neg fun hold => ?_
      have hdigit := hdigits new (by
        rw [← hrun]
        exact List.mem_map.2 ⟨c, hc, if_pos hold⟩)
      rw [hnew] at hdigit
      exact Bool.noConfusion hdigit
    rw [← hrun, List.map_congr_left hkeep, List.map_id]
  rw [← hsame]
  exact ⟨before', back, rfl⟩

theorem infix_join {sep : Text} {ts : List Text} (h : t ∈ ts) : t <:+: join sep ts := by
  induction ts with
  | nil => simp at h
  | cons first ts ih =>
    by_cases hts : ts = []
    · subst hts
      rw [List.mem_singleton.1 h, join_singleton]
    · rw [join_cons hts]
      rcases List.mem_cons.1 h with rfl | h
      · exact List.infix_append [] _ _
      · exact List.infix_append_of_infix_right (List.infix_append_of_infix_right (ih h))

/-- The parts between separators are parts of the text. -/
theorem infix_of_mem_splitOn {sep : Char} (h : u ∈ t.splitOn sep) : u <:+: t := by
  have hjoin : join [sep] (t.splitOn sep) = t := List.intercalate_splitOn sep
  rw [← hjoin]
  exact infix_join h

end Text

/-! ## Headers -/

theorem hasLongRun_of_mem_parts {raw part : Text} (hpart : part ∈ Date.parts raw)
    (h : HasLongRun part) : HasLongRun raw := by
  obtain ⟨run, hrun, hdigits, hlength⟩ := h
  have hreplaced := hrun.trans (infix_of_mem_splitOn hpart)
  have htrimmed := infix_of_infix_replaceChar (by decide) hdigits hreplaced
  exact ⟨run, htrimmed.trans (isInfix_trim raw), hdigits, hlength⟩

/-- An oversized date has a long run. -/
theorem hasLongRun_of_isOversized_date {raw : Text} (h : Date.IsOversized raw) :
    HasLongRun raw := by
  obtain ⟨year, month, day, hparts, hnumeral, part, hmem, hlength⟩ := h
  have hlong : HasLongRun part :=
    ⟨part, List.infix_rfl, allDigits_of_isNumeral (hnumeral part hmem), hlength⟩
  -- a part that is not known is short, so the long part is one of the text
  have hfirst : ∀ p : Text, maxDigits < (Date.orFirst p).length → Date.orFirst p = p := by
    intro p hp
    unfold Date.orFirst at hp ⊢
    split
    · rename_i hmark
      rw [if_pos hmark] at hp
      exact absurd hp (by decide)
    · rfl
  have hpart : part ∈ Date.parts (trim raw) := by
    rw [hparts]
    simp only [List.mem_cons, List.not_mem_nil, or_false] at hmem ⊢
    rcases hmem with rfl | rfl | rfl
    · exact Or.inl rfl
    · exact Or.inr (Or.inl (hfirst month hlength))
    · exact Or.inr (Or.inr (hfirst day hlength))
  exact (hasLongRun_of_mem_parts hpart hlong).mono (isInfix_trim raw)

theorem Headers.exists_mem_of_get? {h : Headers} {key : String} {raw : Text}
    (hraw : h.get? key = some raw) : ∃ tag ∈ h, tag.value = raw := by
  obtain ⟨tag, htag, rfl⟩ := Option.map_eq_some_iff.1 hraw
  exact ⟨tag, List.mem_of_find?_eq_some htag, rfl⟩

/-- Oversized headers have a value with a long run. -/
theorem exists_hasLongRun_of_isOversized {h : Headers} (ho : h.IsOversized) :
    ∃ tag ∈ h, HasLongRun tag.value := by
  rcases ho with ⟨key, _, raw, hraw, hover⟩ | ⟨before, c, after, hdates, _, hover⟩
  · obtain ⟨tag, htag, rfl⟩ := h.exists_mem_of_get? hraw
    exact ⟨tag, htag, hover.hasLongRun.mono (isInfix_trim _)⟩
  · have hc : c ∈ h.dateCandidates := by
      rw [hdates]
      simp
    unfold Headers.dateCandidates at hc
    obtain ⟨⟨key, label⟩, _, hvalue⟩ := List.mem_filterMap.1 (List.mem_mergeSort.1 hc)
    dsimp only at hvalue
    cases hraw : h.get? key with
    | none => simp [hraw] at hvalue
    | some raw =>
      simp only [hraw] at hvalue
      split at hvalue
      · simp at hvalue
      · obtain ⟨tag, htag, rfl⟩ := h.exists_mem_of_get? hraw
        refine ⟨tag, htag, ?_⟩
        rw [← Option.some.inj hvalue] at hover
        exact hasLongRun_of_isOversized_date hover

/-! ## Tag values -/

namespace Pgn.Tag

theorem unescapePair_eq (c : Char) :
    (unescapePair c = [c] ∧ isAsciiDigit c = false) ∨ unescapePair c = ['\\', c] := by
  unfold unescapePair
  split
  · rename_i hc
    refine Or.inl ⟨rfl, ?_⟩
    simp only [Bool.or_eq_true, decide_eq_true_eq] at hc
    rcases hc with rfl | rfl <;> decide
  · exact Or.inr rfl

/-- A run of digits at the start of an unescaped text starts the text as well. -/
theorem prefix_of_prefix_unescape {t run : Text} (hdigits : AllDigits run)
    (h : run <+: unescape t) : run <+: t := by
  fun_induction unescape t generalizing run with
  | case1 c rest ih =>
    rcases unescapePair_eq c with ⟨hpair, hc⟩ | hpair
    · rw [hpair] at h
      rw [hdigits.eq_nil_of_prefix hc h]
      exact List.nil_prefix
    · rw [hpair] at h
      rw [hdigits.eq_nil_of_prefix (by decide) h]
      exact List.nil_prefix
  | case2 c rest _ ih =>
    cases run with
    | nil => exact List.nil_prefix
    | cons d run =>
      obtain ⟨rfl, hrun⟩ := List.cons_prefix_cons.1 h
      exact List.cons_prefix_cons.2 ⟨rfl, ih hdigits.of_cons hrun⟩
  | case3 => exact h

/-- Unescaping makes no run of digits longer. -/
theorem infix_of_infix_unescape {t run : Text} (hdigits : AllDigits run)
    (h : run <:+: unescape t) : run <:+: t := by
  fun_induction unescape t with
  | case1 c rest ih =>
    rcases unescapePair_eq c with ⟨hpair, hc⟩ | hpair
    · rw [hpair, List.singleton_append] at h
      rcases List.infix_cons_iff.1 h with h | h
      · rw [hdigits.eq_nil_of_prefix hc h]
        exact List.nil_infix
      · exact ((ih h).trans (List.suffix_cons c rest).isInfix).trans (List.suffix_cons _ _).isInfix
    · rw [hpair] at h
      rcases List.infix_cons_iff.1 h with h | h
      · rw [hdigits.eq_nil_of_prefix (by decide) h]
        exact List.nil_infix
      · -- behind the backslash stands the character itself
        refine List.IsInfix.trans ?_ (List.suffix_cons '\\' _).isInfix
        rcases List.infix_cons_iff.1 h with h | h
        · cases run with
          | nil => exact List.nil_infix
          | cons d run =>
            obtain ⟨rfl, hrun⟩ := List.cons_prefix_cons.1 h
            have hrest := prefix_of_prefix_unescape hdigits.of_cons hrun
            exact (List.cons_prefix_cons.2 ⟨rfl, hrest⟩).isInfix
        · exact (ih h).trans (List.suffix_cons c rest).isInfix
  | case2 c rest _ ih =>
    rcases List.infix_cons_iff.1 h with h | h
    · have ht : c :: unescape rest = unescape (c :: rest) := by
        rw [unescape]
        assumption
      rw [ht] at h
      exact (prefix_of_prefix_unescape hdigits h).isInfix
    · exact (ih h).trans (List.suffix_cons c rest).isInfix
  | case3 => exact h

theorem hasLongRun_of_unescape {t : Text} (h : HasLongRun (unescape t)) : HasLongRun t := by
  obtain ⟨run, hrun, hdigits, hlength⟩ := h
  exact ⟨run, infix_of_infix_unescape hdigits hrun, hdigits, hlength⟩

/-- A value is what stands before its quote, unescaped. -/
theorem exists_unescape_of_readValue? {t value rest : Text}
    (h : readValue? t = some (value, rest)) : ∃ raw, t = raw ++ '"' :: rest ∧ value = unescape raw := by
  fun_induction readValue? t generalizing value rest with
  | case1 => simp at h
  | case2 t =>
    obtain ⟨rfl, rfl⟩ := Prod.mk.inj (Option.some.inj h)
    exact ⟨[], rfl, rfl⟩
  | case3 => simp at h
  | case4 c t ih =>
    obtain ⟨r, hr, he⟩ := Option.map_eq_some_iff.1 h
    obtain ⟨rfl, rfl⟩ := Prod.mk.inj he
    obtain ⟨raw, rfl, hraw⟩ := ih hr
    exact ⟨'\\' :: c :: raw, rfl, by rw [unescape, hraw]⟩
  | case5 c t hquote hlast hslash ih =>
    obtain ⟨r, hr, he⟩ := Option.map_eq_some_iff.1 h
    obtain ⟨rfl, rfl⟩ := Prod.mk.inj he
    obtain ⟨raw, rfl, hraw⟩ := ih hr
    refine ⟨c :: raw, rfl, ?_⟩
    rw [hraw, unescape]
    rintro d raw' hc rfl
    exact hslash d _ hc rfl

theorem suffix_of_readKey? {t key rest : Text} (h : readKey? t = some (key, rest)) :
    rest <:+ t := by
  unfold readKey? at h
  split at h
  · rename_i t
    simp only at h
    split at h
    · rename_i c r _ hd
      split at h
      · split at h
        · rename_i q hq
          obtain ⟨_, rfl⟩ := Prod.mk.inj (Option.some.inj h)
          have hquote : q <:+ trimLeft r := by
            rw [hq]
            exact List.suffix_cons _ _
          have hkey : c :: r <:+ trimLeft t := by
            rw [← hd]
            exact List.dropWhile_suffix isKeyChar
          calc q <:+ trimLeft r := hquote
            _ <:+ r := List.dropWhile_suffix isBlank
            _ <:+ c :: r := List.suffix_cons c r
            _ <:+ trimLeft t := hkey
            _ <:+ t := List.dropWhile_suffix isBlank
            _ <:+ '[' :: t := List.suffix_cons _ _
        · simp at h
      · simp at h
    · simp at h
  · simp at h

theorem suffix_of_readClose? {t rest : Text} (h : readClose? t = some rest) : rest <:+ t := by
  unfold readClose? at h
  split at h
  · rename_i r hr
    rw [← Option.some.inj h]
    calc r <:+ ']' :: r := List.suffix_cons _ _
      _ = trimLeft t := hr.symm
      _ <:+ t := List.dropWhile_suffix isBlank
  · simp at h

/-- A group takes its value from the text, and what follows it is the rest of the text. -/
theorem hasLongRun_of_read? {t rest : Text} {tag : Tag} (h : read? t = some (tag, rest)) :
    (HasLongRun tag.value → HasLongRun t) ∧ rest <:+ t := by
  unfold read? at h
  split at h
  · simp at h
  · rename_i key u hkey
    split at h
    · simp at h
    · rename_i value v hvalue
      obtain ⟨r, hclose, he⟩ := Option.map_eq_some_iff.1 h
      obtain ⟨rfl, rfl⟩ := Prod.mk.inj he
      obtain ⟨raw, rfl, rfl⟩ := exists_unescape_of_readValue? hvalue
      have hafter : raw ++ '"' :: v <:+ t := suffix_of_readKey? hkey
      refine ⟨fun hlong => ?_, ?_⟩
      · have hraw : raw <:+: t := (List.prefix_append raw _).isInfix.trans hafter.isInfix
        exact (hasLongRun_of_unescape hlong).mono hraw
      · have hrest : v <:+ raw ++ '"' :: v :=
          (List.suffix_cons '"' v).trans (List.suffix_append raw _)
        exact ((suffix_of_readClose? hclose).trans hrest).trans hafter

theorem hasLongRun_of_readGroups? {t : Text} {tags : List Tag} (h : readGroups? t = some tags)
    {tag : Tag} (htag : tag ∈ tags) (hlong : HasLongRun tag.value) : HasLongRun t := by
  have htrim : trimLeft t <:+ t := List.dropWhile_suffix isBlank
  fun_induction readGroups? t generalizing tags with
  | case1 t ht =>
    rw [← Option.some.inj h] at htag
    simp at htag
  | case2 t c cs ht hr => simp at h
  | case3 t c cs ht first rest hr ih =>
    obtain ⟨more, hmore, rfl⟩ := Option.map_eq_some_iff.1 h
    rw [ht] at htrim
    obtain ⟨hfirst, hrest⟩ := hasLongRun_of_read? hr
    refine HasLongRun.mono ?_ htrim.isInfix
    rcases List.mem_cons.1 htag with rfl | htag
    · exact hfirst hlong
    · exact (ih hmore htag (List.dropWhile_suffix isBlank)).mono hrest.isInfix

theorem hasLongRun_of_readLoose? {t : Text} {tag : Tag} (h : readLoose? t = some tag)
    (hlong : HasLongRun tag.value) : HasLongRun t := by
  unfold readLoose? at h
  split at h
  · simp at h
  · rename_i key rest hkey
    split at h
    · rename_i r hr
      split at h
      · rename_i value hvalue
        rw [← Option.some.inj h] at hlong
        have hrest : value <:+ rest.reverse := by
          calc value <:+ '"' :: value := List.suffix_cons _ _
            _ = trimLeft r := hvalue.symm
            _ <:+ r := List.dropWhile_suffix isBlank
            _ <:+ ']' :: r := List.suffix_cons _ _
            _ = rest.reverse := hr.symm
        have hprefix : value.reverse <+: rest := by
          rw [← List.reverse_suffix, List.reverse_reverse]
          exact hrest
        have hinfix := hprefix.isInfix.trans (suffix_of_readKey? hkey).isInfix
        exact (hasLongRun_of_unescape hlong).mono hinfix
      · simp at h
    · simp at h

/-- **The values of a tag line** have no longer runs of digits than the line. -/
theorem hasLongRun_of_readLine? {t : Text} {tags : List Tag} (h : readLine? t = some tags)
    {tag : Tag} (htag : tag ∈ tags) (hlong : HasLongRun tag.value) : HasLongRun t := by
  unfold readLine? at h
  split at h
  · rename_i groups hgroups
    rw [Option.some.inj h] at hgroups
    exact hasLongRun_of_readGroups? hgroups htag hlong
  · obtain ⟨loose, hloose, rfl⟩ := Option.map_eq_some_iff.1 h
    rw [List.mem_singleton.1 htag] at hlong
    exact hasLongRun_of_readLoose? hloose hlong

end Pgn.Tag

end Scoresheet
