import Mathlib.Data.Bool.AllAny
import Scoresheet.Proofs.TimeControl.Tidying

/-!
# A plus sign and the spaces around it

Tidying closes up the spaces around a plus sign in three passes: the first takes one space from each
side if there are spaces on both sides, the second and the third take one more from each side. So
what stands before the sign and behind it does not matter, as long as no other sign is there
(`closeUp_aroundPlus`).
-/

namespace Scoresheet

open Text

namespace TimeControl

variable {v w : Text} {m n p q : Nat}

/-- A plus sign with spaces before and behind it. -/
def spacedPlus (before behind : Nat) : Text :=
  List.replicate before ' ' ++ '+' :: List.replicate behind ' '

/-- Two texts with a plus sign between them, which has spaces before and behind it. -/
def aroundPlus (v w : Text) (before behind : Nat) : Text :=
  v ++ List.replicate before ' ' ++ '+' :: (List.replicate behind ' ' ++ w)

/-- What may stand before the sign and behind it: no other sign, and no space next to this one. -/
structure AreOperands (v w : Text) : Prop where
  noSign : ∀ c ∈ "+-/:|_".toList, c ∉ v ∧ c ∉ w
  before : v.getLast? ≠ some ' '
  behind : w.head? ≠ some ' '

theorem aroundPlus_zero (v w : Text) : aroundPlus v w 0 0 = v ++ '+' :: w := by
  simp [aroundPlus]

/-- A character of neither text that is neither the sign nor a space. -/
theorem not_mem_aroundPlus {c : Char} (hv : c ∉ v) (hw : c ∉ w) (hplus : c ≠ '+')
    (hspace : c ≠ ' ') : c ∉ aroundPlus v w m n := by
  simp [aroundPlus, hv, hw, hplus, hspace]

/-! ## One pass -/

/-- Around the only plus sign of a text the spaces decide. -/
theorem spacedPlus_prefix_iff (hv : '+' ∉ v) (hw : '+' ∉ w) :
    spacedPlus p q <+: v ++ '+' :: w ↔ v = List.replicate p ' ' ∧ List.replicate q ' ' <+: w := by
  constructor
  · rintro ⟨rest, h⟩
    rw [spacedPlus, List.append_assoc, List.cons_append, eq_comm,
      List.append_cons_inj_of_notMem hv hw] at h
    exact ⟨h.1, rest, h.2.2.symm⟩
  · rintro ⟨rfl, rest, rfl⟩
    exact ⟨rest, by simp [spacedPlus]⟩

/-- Spaces in front of a text that begins with none are only these. -/
theorem le_of_replicate_prefix (hw : w.head? ≠ some ' ')
    (h : List.replicate q ' ' <+: List.replicate n ' ' ++ w) : q ≤ n := by
  by_contra hlt
  obtain ⟨k, rfl⟩ := Nat.exists_eq_add_of_lt (Nat.not_le.1 hlt)
  rw [Nat.add_assoc, List.replicate_add, List.prefix_append_right_inj, List.replicate_succ] at h
  obtain ⟨rest, rfl⟩ := h
  exact hw rfl

/-- Spaces behind a text that ends with none are only these. -/
theorem le_of_replicate_suffix (hv : v.getLast? ≠ some ' ')
    (h : List.replicate p ' ' <:+ v ++ List.replicate m ' ') : p ≤ m := by
  rw [← List.reverse_prefix, List.reverse_append, List.reverse_replicate,
    List.reverse_replicate] at h
  exact le_of_replicate_prefix (by rwa [List.head?_reverse]) h

/-- **One pass** takes away as many spaces as stand around the sign in the pattern, if there are
enough on both sides. -/
theorem replaceAll_spacedPlus (h : AreOperands v w) (p q m n : Nat) :
    replaceAll (spacedPlus p q) ['+'] (aroundPlus v w m n)
      = if p ≤ m ∧ q ≤ n then aroundPlus v w (m - p) (n - q) else aroundPlus v w m n := by
  obtain ⟨hv, hw⟩ := h.noSign '+' (by decide)
  have hbefore : ∀ k, '+' ∉ v ++ List.replicate k ' ' := fun k => by simp [hv]
  have hbehind : ∀ l, '+' ∉ List.replicate l ' ' ++ w := fun l => by simp [hw]
  split
  · rename_i hle
    obtain ⟨⟨k, rfl⟩, l, rfl⟩ := And.intro (Nat.exists_eq_add_of_le' hle.1)
      (Nat.exists_eq_add_of_le hle.2)
    have hparts : aroundPlus v w (k + p) (q + l) = (v ++ List.replicate k ' ')
        ++ (spacedPlus p q ++ (List.replicate l ' ' ++ w)) := by
      simp only [aroundPlus, spacedPlus, List.replicate_add, List.append_assoc, List.cons_append]
    rw [hparts, replaceAll_append, replaceAll_occurrence (by simp [spacedPlus]),
      replaceAll_of_not_mem (c := '+') (by simp [spacedPlus]) (hbehind l)]
    · simp [aroundPlus]
    · -- the pattern starts behind the other spaces, for it has only one sign
      intro u hu hne hstart
      have hplus : '+' ∉ u ++ List.replicate p ' ' := by
        simpa using fun hmem => hbefore k (hu.subset hmem)
      have hsplit : u ++ (spacedPlus p q ++ (List.replicate l ' ' ++ w))
          = (u ++ List.replicate p ' ')
            ++ '+' :: (List.replicate q ' ' ++ (List.replicate l ' ' ++ w)) := by
        simp [spacedPlus]
      rw [hsplit, spacedPlus_prefix_iff hplus (by simpa using hbehind l)] at hstart
      exact hne (List.append_left_eq_self.1 hstart.1)
  · rename_i hnot
    have hnowhere : ∀ u, u <:+ v ++ List.replicate m ' ' →
        ¬spacedPlus p q <+: u ++ '+' :: (List.replicate n ' ' ++ w) := by
      intro u hu hstart
      have hplus : '+' ∉ u := fun hmem => hbefore m (hu.subset hmem)
      rw [spacedPlus_prefix_iff hplus (hbehind n)] at hstart
      obtain ⟨rfl, hq⟩ := hstart
      exact hnot ⟨le_of_replicate_suffix h.before hu, le_of_replicate_prefix h.behind hq⟩
    have hsign : (spacedPlus p q).isPrefixOf ('+' :: (List.replicate n ' ' ++ w)) = false := by
      rw [Bool.eq_false_iff, Ne, List.isPrefixOf_iff_prefix]
      exact hnowhere [] List.nil_suffix
    rw [aroundPlus, replaceAll_append fun u hu _ => hnowhere u hu, replaceAll_cons hsign,
      replaceAll_of_not_mem (c := '+') (by simp [spacedPlus]) (hbehind n)]

/-! ## Three passes -/

section Operands

variable (h : AreOperands v w)
include h

theorem replaceAll_plusSpace (m n : Nat) :
    replaceAll "+ ".toList "+".toList (aroundPlus v w m n) = aroundPlus v w m (n - 1) := by
  refine (replaceAll_spacedPlus h 0 1 m n).trans ?_
  split
  · rfl
  · rw [show n - 1 = n by omega]

theorem replaceAll_spacePlus (m n : Nat) :
    replaceAll " +".toList "+".toList (aroundPlus v w m n) = aroundPlus v w (m - 1) n := by
  refine (replaceAll_spacedPlus h 1 0 m n).trans ?_
  split
  · rfl
  · rw [show m - 1 = m by omega]

end Operands

/-- The spaces that three passes leave before and behind the sign. -/
def spacesLeft (before behind : Nat) : Nat × Nat :=
  if 1 ≤ before ∧ 1 ≤ behind then (before - 2, behind - 2) else (before - 1, behind - 1)

/-- The operators take away two spaces on each side at most. -/
theorem replaceEach_aroundPlus (h : AreOperands v w) (m n : Nat) :
    replaceEach operatorSpacing (aroundPlus v w m n)
      = aroundPlus v w (spacesLeft m n).1 (spacesLeft m n).2 := by
  have hothers : ∀ k l : Nat, replaceEach (operatorSpacing.drop 3) (aroundPlus v w k l)
      = aroundPlus v w k l := by
    intro k l
    have hsigns : ∀ pair ∈ operatorSpacing.drop 3, (pair.1.toList.any fun c =>
        c ∈ "+-/:|_".toList ∧ c ≠ '+' ∧ c ≠ ' ') = true := by decide
    refine replaceEach_of_not_mem fun pair hpair => ?_
    obtain ⟨c, hc, hsign, hplus, hspace⟩ := List.any_iff_exists_prop.1 (hsigns pair hpair)
    have hnot := h.noSign c hsign
    exact ⟨c, hc, not_mem_aroundPlus hnot.1 hnot.2 hplus hspace⟩
  have hboth : replaceAll " + ".toList "+".toList (aroundPlus v w m n)
      = if 1 ≤ m ∧ 1 ≤ n then aroundPlus v w (m - 1) (n - 1) else aroundPlus v w m n :=
    replaceAll_spacedPlus h 1 1 m n
  show replaceEach ((" + ", "+") :: ("+ ", "+") :: (" +", "+") :: operatorSpacing.drop 3) _ = _
  rw [replaceEach_cons, replaceEach_cons, replaceEach_cons, hboth, spacesLeft]
  split
  · rw [replaceAll_plusSpace h, replaceAll_spacePlus h, hothers]
    rfl
  · rw [replaceAll_plusSpace h, replaceAll_spacePlus h, hothers]

/-- **Closing up** takes away two spaces on each side at most, and nothing else is done. -/
theorem closeUp_aroundPlus (h : AreOperands v w) (m n : Nat) :
    closeUp (aroundPlus v w m n) = ⟨aroundPlus v w (spacesLeft m n).1 (spacesLeft m n).2,
      ifChanged (aroundPlus v w m n) (aroundPlus v w (spacesLeft m n).1 (spacesLeft m n).2)
        .operatorSpacing⟩ := by
  have hsigns : ∀ c ∈ "|_".toList, c ∈ "+-/:|_".toList ∧ c ≠ '+' ∧ c ≠ ' ' :=
    List.all_iff_forall_prop.1 (by decide)
  have hnot : ∀ c ∈ "|_".toList, ∀ k l : Nat, c ∉ aroundPlus v w k l := by
    intro c hc k l
    obtain ⟨hsign, hplus, hspace⟩ := hsigns c hc
    have hparts := h.noSign c hsign
    exact not_mem_aroundPlus hparts.1 hparts.2 hplus hspace
  unfold closeUp
  rw [replaceEach_aroundPlus h]
  dsimp only
  rw [map_plusLike (hnot '|' (by decide) _ _) (hnot '_' (by decide) _ _), beq_self_eq_true,
    if_pos rfl]

end TimeControl

end Scoresheet
