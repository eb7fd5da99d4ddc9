import Mathlib.Data.List.Nodup
import Scoresheet.Lineage

/-!
# The order of games by their moves

Games are ordered by their moves, word by word and character by character, and games of the same
moves by their numbers. Two facts make it enough to look at neighbours: what lies between a list of
moves and a continuation of it continues it as well (`isPrefix_of_between`), and games of distinct
numbers have one order whatever order they were given in (`mergeSort_le_congr`).
-/

namespace Scoresheet.Lineage

open Text

/-! ## Lists of moves -/

theorem eq_of_not_lt {s t : List Text} (h : ¬s < t) (h' : ¬t < s) : s = t :=
  List.le_antisymm h' h

/-- **What lies between a list and an extension of it extends it.** -/
theorem isPrefix_of_between {α : Type} [LT α] [Std.Trichotomous (α := α) (· < ·)] {s : List α} :
    ∀ {t u : List α}, ¬t < s → ¬u < t → s <+: u → s <+: t := by
  induction s with
  | nil => exact fun _ _ _ => List.nil_prefix
  | cons a s ih =>
    intro t u hs ht h
    obtain ⟨r, rfl⟩ := h
    cases t with
    | nil => exact absurd (List.nil_lt_cons a s) hs
    | cons b t =>
      -- the extension starts with `a`, and so does all that lies before it
      rw [List.cons_append, List.cons_lt_cons_iff, not_or] at ht
      rw [List.cons_lt_cons_iff, not_or] at hs
      obtain rfl : a = b := Std.Trichotomous.trichotomous a b ht.1 hs.1
      have htail : s <+: t :=
        ih (fun h => hs.2 ⟨rfl, h⟩) (fun h => ht.2 ⟨rfl, h⟩) (List.prefix_append s r)
      exact (List.prefix_cons_inj a).2 htail

/-! ## Keys -/

/-- The strict order by moves and then by numbers. -/
def Precedes (p q : List Text × Int) : Prop := p.1 < q.1 ∨ p.1 = q.1 ∧ p.2 < q.2

namespace Precedes

variable {p q r : List Text × Int}

theorem trans (h : Precedes p q) (h' : Precedes q r) : Precedes p r := by
  rcases h with h | ⟨h, hid⟩
  · rcases h' with h' | ⟨h', _⟩
    · exact Or.inl (List.lt_trans h h')
    · exact Or.inl (h' ▸ h)
  · rcases h' with h' | ⟨h', hid'⟩
    · exact Or.inl (h ▸ h')
    · exact Or.inr ⟨h.trans h', Int.lt_trans hid hid'⟩

theorem irrefl (p : List Text × Int) : ¬Precedes p p := by
  rintro (h | ⟨_, h⟩)
  · exact List.lt_irrefl _ h
  · exact Int.lt_irrefl _ h

theorem asymm (h : Precedes p q) : ¬Precedes q p := fun h' => irrefl p (h.trans h')

theorem trichotomy (p q : List Text × Int) : Precedes p q ∨ p = q ∨ Precedes q p := by
  by_cases h : p.1 < q.1
  · exact Or.inl (Or.inl h)
  · by_cases h' : q.1 < p.1
    · exact Or.inr (Or.inr (Or.inl h'))
    · have heq : p.1 = q.1 := eq_of_not_lt h h'
      rcases Int.lt_trichotomy p.2 q.2 with hid | hid | hid
      · exact Or.inl (Or.inr ⟨heq, hid⟩)
      · exact Or.inr (Or.inl (Prod.ext heq hid))
      · exact Or.inr (Or.inr (Or.inr ⟨heq.symm, hid⟩))

theorem not_lt (h : Precedes p q) : ¬q.1 < p.1 := by
  intro h'
  exact h.asymm (Or.inl h')

end Precedes

/-! ## Candidates -/

/-- What a candidate is ordered by. -/
def Candidate.key (c : Candidate) : List Text × Int := (c.sans, c.id)

theorem le_iff {a b : Candidate} : le a b = true ↔ Precedes a.key b.key ∨ a.key = b.key := by
  simp only [le, Bool.or_eq_true, Bool.and_eq_true, decide_eq_true_eq, beq_iff_eq, Precedes,
    Candidate.key, Prod.mk.injEq]
  constructor
  · rintro (h | ⟨h, hid⟩)
    · exact Or.inl (Or.inl h)
    · rcases Int.lt_or_eq_of_le hid with hid | hid
      · exact Or.inl (Or.inr ⟨h, hid⟩)
      · exact Or.inr ⟨h, hid⟩
  · rintro ((h | ⟨h, hid⟩) | ⟨h, hid⟩)
    · exact Or.inl h
    · exact Or.inr ⟨h, Int.le_of_lt hid⟩
    · exact Or.inr ⟨h, Int.le_of_eq hid⟩

theorem le_trans (a b c : Candidate) (h : le a b = true) (h' : le b c = true) :
    le a c = true := by
  rw [le_iff] at *
  rcases h with h | h
  · rcases h' with h' | h'
    · exact Or.inl (h.trans h')
    · exact Or.inl (h' ▸ h)
  · exact h ▸ h'

theorem le_total (a b : Candidate) : (le a b || le b a) = true := by
  rw [Bool.or_eq_true, le_iff, le_iff]
  rcases Precedes.trichotomy a.key b.key with h | h | h
  · exact Or.inl (Or.inl h)
  · exact Or.inl (Or.inr h)
  · exact Or.inr (Or.inl h)

/-- Candidates of distinct numbers, each before those after it. -/
def Ascending (l : List Candidate) : Prop := l.Pairwise fun a b => Precedes a.key b.key

/-- Candidates of distinct numbers are sorted strictly. -/
theorem ascending_mergeSort {l : List Candidate} (h : (l.map Candidate.id).Nodup) :
    Ascending (l.mergeSort le) := by
  have hle := List.pairwise_mergeSort le_trans le_total l
  have hperm : ((l.mergeSort le).map Candidate.id).Nodup :=
    ((List.mergeSort_perm l le).map _).nodup_iff.2 h
  rw [List.Nodup, List.pairwise_map] at hperm
  refine (hle.and hperm).imp ?_
  rintro a b ⟨hab, hid⟩
  rcases le_iff.1 hab with hab | hab
  · exact hab
  · exact absurd (congrArg Prod.snd hab) hid

/-- **Candidates of distinct numbers have one order**, however they were given. -/
theorem mergeSort_le_congr {l l' : List Candidate} (h : (l.map Candidate.id).Nodup)
    (hperm : l.Perm l') : l.mergeSort le = l'.mergeSort le := by
  have hsorted := List.pairwise_mergeSort le_trans le_total
  refine List.Perm.eq_of_pairwise ?_ (hsorted l) (hsorted l')
    ((List.mergeSort_perm l le).trans (hperm.trans (List.mergeSort_perm l' le).symm))
  intro a b ha hb hab hba
  have hkey : a.key = b.key := by
    rcases le_iff.1 hab with hab | hab
    · rcases le_iff.1 hba with hba | hba
      · exact absurd hba hab.asymm
      · exact hba.symm
    · exact hab
  have hb' : b ∈ l := hperm.mem_iff.2 (List.mem_mergeSort.1 hb)
  exact List.inj_on_of_nodup_map h (List.mem_mergeSort.1 ha) hb' (congrArg Prod.snd hkey)

end Scoresheet.Lineage
