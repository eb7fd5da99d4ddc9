import Scoresheet.Proofs.Mainline.CleanText

/-!
# Containment is a preorder

A text is contained in another if both have a main line and the one's moves are a beginning of the
other's (`isSubset_eq_ok_true_iff_isPrefix`), whichever of its two ways the comparison takes for the
pair. So the laws of beginnings carry over to texts (`isSubset_preorder`): containment is
transitive, it holds of a text and itself as soon as the text has a main line, and texts that
contain each other have the same moves. A text without a main line contains nothing and is contained in nothing.
-/

namespace Scoresheet

open Text Pgn

/-! ## Texts with a main line -/

/-- The text is blank, or it is read without a fault and holds a move or a result. -/
def HasMainline (m : Text) : Prop :=
  isBlankText m = true ∨
    ∃ p, Mainline.ofMovetext m = .ok p ∧ p.failed = false ∧ (p.sans ≠ [] ∨ p.outcome ≠ none)

theorem hasNoMainline_eq_false_iff {m : Text} {p : Mainline} :
    hasNoMainline m p = false ↔
      p.failed = false ∧ (isBlankText m = true ∨ p.sans ≠ [] ∨ p.outcome ≠ none) := by
  unfold hasNoMainline
  cases p.failed <;> cases isBlankText m <;> cases p.sans <;> cases p.outcome <;> simp

/-- What the comparison takes for a text with a main line is one. -/
theorem hasMainline_iff {m : Text} :
    HasMainline m ↔ ∃ p, Mainline.ofMovetext m = .ok p ∧ hasNoMainline m p = false := by
  simp only [HasMainline, hasNoMainline_eq_false_iff]
  constructor
  · rintro (hblank | ⟨p, hp, hfailed, hsome⟩)
    · exact ⟨_, ofMovetext_of_isBlankText hblank, rfl, Or.inl hblank⟩
    · exact ⟨p, hp, hfailed, Or.inr hsome⟩
  · rintro ⟨p, hp, hfailed, hblank | hsome⟩
    · exact Or.inl hblank
    · exact Or.inr ⟨p, hp, hfailed, hsome⟩

/-! ## Containment -/

variable {a b c : Text}

/-- **Containment is a matter of main lines**, whichever way the comparison takes. -/
theorem isSubset_eq_ok_true_iff_isPrefix :
    isSubset a b = .ok true ↔ ∃ p q, Mainline.ofMovetext a = .ok p ∧
      Mainline.ofMovetext b = .ok q ∧ hasNoMainline a p = false ∧ hasNoMainline b q = false ∧
      p.sans <+: q.sans := by
  rw [isSubset_eq_isSubsetByReading, isSubsetByReading]
  cases Mainline.ofMovetext a with
  | error n => simp [bind, Except.bind]
  | ok p =>
    cases Mainline.ofMovetext b with
    | error n => simp [bind, Except.bind]
    | ok q =>
      simp [bind, Except.bind, pure, Except.pure, and_assoc]

theorem isSubset_trans (hab : isSubset a b = .ok true) (hbc : isSubset b c = .ok true) :
    isSubset a c = .ok true := by
  rw [isSubset_eq_ok_true_iff_isPrefix] at hab hbc ⊢
  obtain ⟨p, q, hp, hq, hap, _, hpq⟩ := hab
  obtain ⟨q', r, hq', hr, _, hcr, hqr⟩ := hbc
  obtain rfl : q = q' := Except.ok.inj (hq.symm.trans hq')
  exact ⟨p, r, hp, hr, hap, hcr, hpq.trans hqr⟩

theorem isSubset_self_iff : isSubset a a = .ok true ↔ HasMainline a := by
  rw [isSubset_eq_ok_true_iff_isPrefix, hasMainline_iff]
  constructor
  · rintro ⟨p, _, hp, _, hap, _⟩
    exact ⟨p, hp, hap⟩
  · rintro ⟨p, hp, hap⟩
    exact ⟨p, p, hp, hp, hap, hap, List.prefix_rfl⟩

/-- Texts that contain each other have the same moves. -/
theorem sans_eq_of_isSubset (hab : isSubset a b = .ok true) (hba : isSubset b a = .ok true) :
    ∃ p q, Mainline.ofMovetext a = .ok p ∧ Mainline.ofMovetext b = .ok q ∧ p.sans = q.sans := by
  rw [isSubset_eq_ok_true_iff_isPrefix] at hab hba
  obtain ⟨p, q, hp, hq, _, _, hpq⟩ := hab
  obtain ⟨q', p', hq', hp', _, _, hqp⟩ := hba
  obtain rfl : q = q' := Except.ok.inj (hq.symm.trans hq')
  obtain rfl : p = p' := Except.ok.inj (hp.symm.trans hp')
  exact ⟨p, q, hp, hq, hpq.sublist.antisymm hqp.sublist⟩

/-- A blank text is a beginning of every game. -/
theorem isSubset_of_isBlankText (ha : isBlankText a = true) (hb : HasMainline b) :
    isSubset a b = .ok true := by
  obtain ⟨q, hq, hbq⟩ := hasMainline_iff.1 hb
  refine isSubset_eq_ok_true_iff_isPrefix.2
    ⟨_, q, ofMovetext_of_isBlankText ha, hq, ?_, hbq, List.nil_prefix⟩
  exact hasNoMainline_eq_false_iff.2 ⟨rfl, Or.inl ha⟩

/-- **Containment is a preorder on the texts with a main line**, and its classes are the texts of
the same moves. The blank texts are its least elements. -/
theorem isSubset_preorder :
    (∀ a b c : Text, isSubset a b = .ok true → isSubset b c = .ok true →
      isSubset a c = .ok true) ∧
    (∀ a : Text, isSubset a a = .ok true ↔ HasMainline a) ∧
    (∀ a b : Text, isSubset a b = .ok true → isSubset b a = .ok true →
      ∃ p q, Mainline.ofMovetext a = .ok p ∧ Mainline.ofMovetext b = .ok q ∧ p.sans = q.sans) ∧
    ∀ a b : Text, isBlankText a = true → HasMainline b → isSubset a b = .ok true :=
  ⟨fun _ _ _ => isSubset_trans, fun _ => isSubset_self_iff, fun _ _ => sans_eq_of_isSubset,
    fun _ _ => isSubset_of_isBlankText⟩

/-- An opening, a longer one, and a game with a comment: the first two are compared word by word,
the others as game texts. The last text is an annotated copy of the first. -/
theorem isSubset_preorder_openings :
    isSubsetFast "1. e4".toList "1. e4 e5".toList = some true ∧
    isSubsetFast "1. e4 e5".toList "1. e4 \x7bbest\x7d e5 2. Nf3".toList = none ∧
    isSubset "1. e4".toList "1. e4 e5".toList = .ok true ∧
    isSubset "1. e4 e5".toList "1. e4 \x7bbest\x7d e5 2. Nf3".toList = .ok true ∧
    isSubset "1. e4".toList "1. e4 \x7bbest\x7d e5 2. Nf3".toList = .ok true ∧
    (∃ p q, Mainline.ofMovetext "1. e4".toList = .ok p ∧
      Mainline.ofMovetext "1.e4! *".toList = .ok q ∧ p.sans = q.sans) ∧
    isSubset " \n".toList "1. e4".toList = .ok true := by
  obtain ⟨htrans, hself, hantisymm, hblank⟩ := isSubset_preorder
  have hshort : isSubset "1. e4".toList "1. e4 e5".toList = .ok true := by decide +kernel
  have hlong : isSubset "1. e4 e5".toList "1. e4 \x7bbest\x7d e5 2. Nf3".toList = .ok true := by
    decide +kernel
  have hopening : isSubset "1. e4".toList "1. e4".toList = .ok true := by decide +kernel
  have hcopy : isSubset "1. e4".toList "1.e4! *".toList = .ok true := by decide +kernel
  have hback : isSubset "1.e4! *".toList "1. e4".toList = .ok true := by decide +kernel
  exact ⟨by decide +kernel, by decide +kernel, hshort, hlong, htrans _ _ _ hshort hlong,
    hantisymm _ _ hcopy hback, hblank _ _ (by decide) ((hself _).1 hopening)⟩

end Scoresheet
