import Scoresheet.Proofs.Record.DigitRuns
import Scoresheet.Proofs.Text.Numerals
import Scoresheet.Text.Case
import Scoresheet.Text.Replace

/-!
# Texts after a replacement

Where a pattern does not occur, replacing it changes nothing (`replaceAll_of_not_mem`). Where other
characters than digits are put in for something, whatever it was, no run of digits becomes longer
(`Patched.hasLongRun`): two runs never meet, for at least one character is put in between them.
-/

namespace Scoresheet.Text

variable {t u : Text}

/-! ## Substitution step by step -/

section Substitute

variable {rule : Text → Option (Text × Nat)} {c : Char}

theorem substitute_of_none (h : rule (c :: t) = none) :
    substitute rule 0 (c :: t) = c :: substitute rule 0 t := by
  rw [substitute]
  simp only [h]

/-- Characters that stand for what was put in are passed over. -/
theorem substitute_skip (n : Nat) (t : Text) : substitute rule n t = substitute rule 0 (t.drop n) := by
  induction t generalizing n with
  | nil => rw [List.drop_nil, substitute, substitute]
  | cons c t ih =>
    cases n with
    | zero => rfl
    | succ n => rw [substitute, ih n, List.drop_succ_cons]

/-- A text in which the rule fits nowhere is passed over. -/
theorem substitute_append (h : ∀ v, v <:+ u → v ≠ [] → rule (v ++ t) = none) :
    substitute rule 0 (u ++ t) = u ++ substitute rule 0 t := by
  induction u with
  | nil => rfl
  | cons c u ih =>
    have hc := h (c :: u) List.suffix_rfl (List.cons_ne_nil c u)
    rw [List.cons_append] at hc ⊢
    rw [substitute_of_none hc, ih fun v hv => h v (hv.trans (List.suffix_cons c u)),
      List.cons_append]

end Substitute

/-! ## Replacing a pattern -/

section ReplaceAll

variable {old new : Text} {c : Char}

/-- Where the pattern does not stand, a character is passed over. -/
theorem replaceAll_cons (h : old.isPrefixOf (c :: t) = false) :
    replaceAll old new (c :: t) = c :: replaceAll old new t :=
  substitute_of_none (if_neg (by simp [h]))

theorem replaceAll_occurrence (hne : old ≠ []) (new t : Text) :
    replaceAll old new (old ++ t) = new ++ replaceAll old new t := by
  obtain ⟨c, cs, rfl⟩ := List.exists_cons_of_ne_nil hne
  have hstart : (c :: cs).isPrefixOf (c :: cs ++ t) = true :=
    List.isPrefixOf_iff_prefix.2 (List.prefix_append _ _)
  rw [replaceAll, List.cons_append, substitute]
  simp only [List.cons_append] at hstart
  simp only [hstart, if_true, List.length_cons, Nat.add_sub_cancel]
  rw [substitute_skip, List.drop_left]
  rfl

/-- A text at no place of which the pattern begins is passed over. -/
theorem replaceAll_append (h : ∀ v, v <:+ u → v ≠ [] → ¬old <+: v ++ t) :
    replaceAll old new (u ++ t) = u ++ replaceAll old new t := by
  refine substitute_append fun v hv hne => if_neg ?_
  rw [List.isPrefixOf_iff_prefix]
  exact h v hv hne

/-- **A text without some character of the pattern** is not changed. -/
theorem replaceAll_of_not_mem (hc : c ∈ old) (h : c ∉ t) : replaceAll old new t = t := by
  induction t with
  | nil => rfl
  | cons d t ih =>
    have hstart : old.isPrefixOf (d :: t) = false := by
      rw [Bool.eq_false_iff]
      intro hp
      exact h ((List.isPrefixOf_iff_prefix.1 hp).subset hc)
    rw [replaceAll_cons hstart, ih fun ht => h (List.mem_cons_of_mem d ht)]

theorem replaceEach_cons (pair : String × String) (pairs : List (String × String)) (t : Text) :
    replaceEach (pair :: pairs) t
      = replaceEach pairs (replaceAll pair.1.toList pair.2.toList t) := rfl

/-- A text without some character of each pattern is not changed. -/
theorem replaceEach_of_not_mem {pairs : List (String × String)}
    (h : ∀ pair ∈ pairs, ∃ c ∈ pair.1.toList, c ∉ t) : replaceEach pairs t = t := by
  induction pairs with
  | nil => rfl
  | cons pair pairs ih =>
    obtain ⟨c, hc, ht⟩ := h pair List.mem_cons_self
    rw [replaceEach_cons, replaceAll_of_not_mem hc ht]
    exact ih fun p hp => h p (List.mem_cons_of_mem _ hp)

end ReplaceAll

/-! ## Runs of digits -/

/-- Some characters, none of which is a digit. -/
structure IsPatch (t : Text) : Prop where
  ne_nil : t ≠ []
  isAsciiDigit : ∀ c ∈ t, isAsciiDigit c = false

theorem isPatch_iff : IsPatch t ↔ t ≠ [] ∧ (t.all fun c => !isAsciiDigit c) = true := by
  have hall : (t.all fun c => !isAsciiDigit c) = true ↔ ∀ c ∈ t, isAsciiDigit c = false := by
    simp only [List.all_eq_true, Bool.not_eq_true']
  rw [hall]
  exact ⟨fun h => ⟨h.ne_nil, h.isAsciiDigit⟩, fun h => ⟨h.1, h.2⟩⟩

instance : DecidablePred IsPatch := fun _ => decidable_of_iff _ isPatch_iff.symm

theorem isPatch_singleton {c : Char} (h : isAsciiDigit c = false) : IsPatch [c] :=
  ⟨List.cons_ne_nil c [], by simpa using h⟩

/-- The second text arises from the first by putting patches in the place of some of its parts. -/
inductive Patched : Text → Text → Prop
  | nil : Patched [] []
  | keep (c : Char) {t u : Text} : Patched t u → Patched (c :: t) (c :: u)
  | put (old : Text) {new t u : Text} (hnew : IsPatch new) :
      Patched t u → Patched (old ++ t) (new ++ u)

namespace Patched

/-- No run of digits reaches into what was put in. -/
theorem infix_of_infix_append {run new : Text} (hdigits : AllDigits run)
    (hnew : ∀ c ∈ new, isAsciiDigit c = false) (h : run <:+: new ++ u) : run <:+: u := by
  induction new with
  | nil => exact h
  | cons c new ih =>
    rcases List.infix_cons_iff.1 h with h | h
    · rw [hdigits.eq_nil_of_prefix (hnew c List.mem_cons_self) h]
      exact List.nil_infix
    · exact ih (fun d hd => hnew d (List.mem_cons_of_mem c hd)) h

theorem prefix_of_digits {run : Text} (h : Patched t u) (hdigits : AllDigits run)
    (hrun : run <+: u) : run <+: t := by
  induction h generalizing run with
  | nil => exact hrun
  | keep c _ ih =>
    cases run with
    | nil => exact List.nil_prefix
    | cons d run =>
      obtain ⟨rfl, htail⟩ := List.cons_prefix_cons.1 hrun
      exact List.cons_prefix_cons.2 ⟨rfl, ih hdigits.of_cons htail⟩
  | put old hnew _ _ =>
    -- a patch has a first character, and a run that starts with it is empty
    obtain ⟨c, new, rfl⟩ := List.exists_cons_of_ne_nil hnew.ne_nil
    rw [hdigits.eq_nil_of_prefix (hnew.isAsciiDigit c List.mem_cons_self) hrun]
    exact List.nil_prefix

theorem infix_of_infix {run : Text} (h : Patched t u) (hdigits : AllDigits run)
    (hrun : run <:+: u) : run <:+: t := by
  induction h with
  | nil => exact hrun
  | keep c h ih =>
    -- a run that starts with the character that was kept is a beginning of the text
    rcases List.infix_cons_iff.1 hrun with hrun | hrun
    · exact ((h.keep c).prefix_of_digits hdigits hrun).isInfix
    · exact (ih hrun).trans (List.suffix_cons c _).isInfix
  | put old hnew _ ih =>
    have hrest := ih (infix_of_infix_append hdigits hnew.isAsciiDigit hrun)
    exact hrest.trans (List.suffix_append old _).isInfix

/-- **No run of digits becomes longer** where other characters are put in. -/
theorem hasLongRun (h : Patched t u) (hlong : HasLongRun u) : HasLongRun t := by
  obtain ⟨run, hrun, hdigits, hlength⟩ := hlong
  exact ⟨run, h.infix_of_infix hdigits hrun, hdigits, hlength⟩

/-- A character may be taken away before one that is no digit. -/
theorem drop_head {c d : Char} (hc : isAsciiDigit c = false) (h : Patched (c :: t) u) :
    Patched (d :: c :: t) u := by
  generalize hs : c :: t = s at h ⊢
  cases h with
  | nil => simp at hs
  | keep c' h =>
    obtain ⟨rfl, rfl⟩ := List.cons.inj hs
    exact h.put [d, c] (isPatch_singleton hc)
  | put old hnew h => exact h.put (d :: old) hnew

end Patched

/-- A substitution that puts in patches. -/
theorem patched_substitute {rule : Text → Option (Text × Nat)}
    (hrule : ∀ t new n, rule t = some (new, n) → IsPatch new) (n : Nat) (t : Text) :
    Patched (t.drop n) (substitute rule n t) := by
  induction t generalizing n with
  | nil =>
    rw [List.drop_nil, substitute]
    exact .nil
  | cons c t ih =>
    cases n with
    | succ n =>
      rw [List.drop_succ_cons, substitute]
      exact ih n
    | zero =>
      rw [List.drop_zero, substitute]
      cases h : rule (c :: t) with
      | none => exact (ih 0).keep c
      | some r =>
        obtain ⟨new, consumed⟩ := r
        have hput := (ih (consumed - 1)).put (c :: t.take (consumed - 1)) (hrule _ _ _ h)
        rwa [List.cons_append, List.take_append_drop] at hput

theorem hasLongRun_of_replaceAll {old new : Text} (hnew : IsPatch new)
    (h : HasLongRun (replaceAll old new t)) : HasLongRun t := by
  refine (patched_substitute ?_ 0 t).hasLongRun h
  intro u new' n hrule
  split at hrule
  · obtain ⟨rfl, _⟩ := Prod.mk.inj (Option.some.inj hrule)
    exact hnew
  · simp at hrule

theorem hasLongRun_of_replaceEach {pairs : List (String × String)}
    (hpairs : ∀ pair ∈ pairs, IsPatch pair.2.toList) (h : HasLongRun (replaceEach pairs t)) :
    HasLongRun t := by
  induction pairs generalizing t with
  | nil => exact h
  | cons pair pairs ih =>
    exact hasLongRun_of_replaceAll (hpairs pair List.mem_cons_self)
      (ih (fun p hp => hpairs p (List.mem_cons_of_mem _ hp)) h)

/-- A change of single characters that keeps a character or puts in a patch. -/
theorem patched_flatMap {f : Char → Text} (hf : ∀ c, f c = [c] ∨ IsPatch (f c)) (t : Text) :
    Patched t (t.flatMap f) := by
  induction t with
  | nil => exact .nil
  | cons c t ih =>
    rw [List.flatMap_cons]
    rcases hf c with hc | hnew
    · rw [hc]
      exact ih.keep c
    · exact ih.put [c] hnew

theorem patched_map {f : Char → Char} (hf : ∀ c, f c = c ∨ isAsciiDigit (f c) = false) (t : Text) :
    Patched t (t.map f) := by
  rw [List.map_eq_flatMap]
  refine patched_flatMap (fun c => ?_) t
  exact (hf c).imp (congrArg fun d => [d]) isPatch_singleton

/-! ## Small letters -/

theorem lowerAscii_cases (c : Char) : lowerAscii c = c ∨ isAsciiDigit (lowerAscii c) = false := by
  have hall : ∀ n < 26, isAsciiDigit (Char.ofNat (65 + n + 32)) = false := by decide
  unfold lowerAscii
  split
  · rename_i h
    rw [Bool.and_eq_true, decide_eq_true_eq, decide_eq_true_eq] at h
    have hlow : 65 ≤ c.toNat := h.1
    have hhigh : c.toNat ≤ 90 := h.2
    have hdigit := hall (c.toNat - 65) (by omega)
    rw [show 65 + (c.toNat - 65) = c.toNat by omega] at hdigit
    exact Or.inr hdigit
  · exact Or.inl rfl

theorem patched_lower (t : Text) : Patched t (lower t) := by
  refine patched_flatMap (fun c => ?_) t
  split
  · exact Or.inr (by decide)
  · split
    · exact Or.inr (by decide)
    · exact (lowerAscii_cases c).imp (congrArg fun d => [d]) isPatch_singleton

theorem patched_foldCase (t : Text) : Patched t (foldCase t) := by
  refine patched_map (fun c => ?_) t
  split
  · exact Or.inr (by decide)
  · split
    · exact Or.inr (by decide)
    · split
      · exact Or.inr (by decide)
      · exact lowerAscii_cases c

/-- An ASCII character that is no capital letter. -/
def isSmall (c : Char) : Bool := c.toNat < 0x80 && !('A' ≤ c && c ≤ 'Z')

theorem isSmall_of_isAsciiDigit {c : Char} (h : isAsciiDigit c = true) : isSmall c = true :=
  of_digits (P := fun c => isSmall c = true) (by decide) h

/-- Small characters have no other form. -/
theorem lowerAscii_of_isSmall {c : Char} (h : isSmall c = true) :
    lowerAscii c = c ∧ c ≠ '\u212A' ∧ c ≠ '\u0130' ∧ c ≠ '\u0131' ∧ c ≠ '\u017F' := by
  simp only [isSmall, Bool.and_eq_true, decide_eq_true_eq, Bool.not_eq_true'] at h
  refine ⟨?_, ?_, ?_, ?_, ?_⟩
  · rw [lowerAscii, h.2, if_neg Bool.false_ne_true]
  all_goals
    rintro rfl
    exact absurd h.1 (by decide)

theorem foldCase_of_small (h : ∀ c ∈ t, isSmall c = true) : foldCase t = t := by
  unfold foldCase
  conv_rhs => rw [← List.map_id t]
  refine List.map_congr_left fun c hc => ?_
  obtain ⟨hlower, h₁, h₂, h₃, h₄⟩ := lowerAscii_of_isSmall (h c hc)
  rw [if_neg h₁, if_neg (by simp [h₂, h₃]), if_neg h₄, hlower, id]

theorem lower_of_small (h : ∀ c ∈ t, isSmall c = true) : lower t = t := by
  induction t with
  | nil => rfl
  | cons c t ih =>
    obtain ⟨hc, ht⟩ := List.forall_mem_cons.1 h
    obtain ⟨hlower, h₁, h₂, _⟩ := lowerAscii_of_isSmall hc
    have hrest : t.flatMap _ = t := ih ht
    rw [lower, List.flatMap_cons, hrest, if_neg h₁, if_neg h₂, hlower, List.singleton_append]

end Scoresheet.Text
