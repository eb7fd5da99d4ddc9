import Mathlib.Logic.Relation
import Mathlib.Order.WellFoundedSet
import Scoresheet.Proofs.Lineage.Successors

/-!
# Marked games may be removed

A link leads from a game to one that continues it and comes behind it in the order of moves and
numbers (`Continues`). There are only finitely many games, so links never run in a circle, and
whoever follows them from a marked game comes to one that is not marked (`exists_isEnd`). That game
continues the first, so no moves are lost if all marked games are removed.
-/

namespace Scoresheet.Lineage

open Text Pgn Relation

/-! ## Links -/

/-- A game is linked to another. -/
def IsLink (es : List LineageEntry) (e f : LineageEntry) : Prop :=
  e ∈ es ∧ f ∈ es ∧ e.subsumedBy = some f.id

/-- A game behind another one continues its moves. -/
def Continues (e f : LineageEntry) : Prop :=
  ∃ s u, e.sans = some s ∧ f.sans = some u ∧ s <+: u ∧ Precedes (s, e.id) (u, f.id)

namespace Continues

variable {e f g : LineageEntry}

theorem trans (h : Continues e f) (h' : Continues f g) : Continues e g := by
  obtain ⟨s, u, hs, hu, hprefix, hlt⟩ := h
  obtain ⟨u', v, hu', hv, hprefix', hlt'⟩ := h'
  obtain rfl : u = u' := Option.some.inj (hu.symm.trans hu')
  exact ⟨s, v, hs, hv, hprefix.trans hprefix', hlt.trans hlt'⟩

theorem irrefl (e : LineageEntry) : ¬Continues e e := by
  rintro ⟨s, u, hs, hu, _, hlt⟩
  obtain rfl : s = u := Option.some.inj (hs.symm.trans hu)
  exact Precedes.irrefl _ hlt

theorem ne (h : Continues e f) : e ≠ f := by
  rintro rfl
  exact irrefl e h

end Continues

/-- Behind each game there are only finitely many others. -/
theorem wellFoundedOn_continues (es : List LineageEntry) :
    {e | e ∈ es}.WellFoundedOn fun f e => Continues e f := by
  have : IsStrictOrder LineageEntry fun f e => Continues e f :=
    { irrefl := Continues.irrefl
      trans := fun _ _ _ h h' => h'.trans h }
  exact (List.finite_toSet es).wellFoundedOn

/-! ## Chains of links -/

section Chains

variable {es : List LineageEntry} {e f d : LineageEntry}

/-- Links that lead from each marked game to one that continues it. -/
def LinksContinue (es : List LineageEntry) : Prop :=
  ∀ e ∈ es, ∀ g, e.subsumedBy = some g → ∃ f ∈ es, f.id = g ∧ Continues e f

theorem IsLink.unique (hids : (es.map fun e => e.id).Nodup) (h : IsLink es e f)
    (h' : IsLink es e d) : f = d := by
  have heq : f.id = d.id := Option.some.inj (h.2.2.symm.trans h'.2.2)
  exact List.inj_on_of_nodup_map hids h.2.1 h'.2.1 heq

theorem IsLink.continues (hids : (es.map fun e => e.id).Nodup) (hes : LinksContinue es)
    (h : IsLink es e f) : Continues e f := by
  obtain ⟨d, hd, hid, hcontinues⟩ := hes e h.1 f.id h.2.2
  obtain rfl : d = f := List.inj_on_of_nodup_map hids hd h.2.1 hid
  exact hcontinues

/-- **Links never run in a circle.** -/
theorem not_transGen_isLink (hids : (es.map fun e => e.id).Nodup) (hes : LinksContinue es)
    (e : LineageEntry) : ¬TransGen (IsLink es) e e := by
  intro h
  have hcontinues : ∀ {d}, TransGen (IsLink es) e d → Continues e d := by
    intro d h
    induction h with
    | single h => exact h.continues hids hes
    | tail _ h ih => exact ih.trans (h.continues hids hes)
  exact Continues.irrefl e (hcontinues h)

/-- A game at which every chain of links from another one ends. -/
structure IsEnd (es : List LineageEntry) (e f : LineageEntry) : Prop where
  mem : f ∈ es
  isReached : ReflTransGen (IsLink es) e f
  subsumedBy : f.subsumedBy = none
  isPassed : ∀ d, ReflTransGen (IsLink es) e d → ReflTransGen (IsLink es) d f

/-- **Every chain of links ends**, and at one game only. -/
theorem exists_isEnd (hids : (es.map fun e => e.id).Nodup) (hes : LinksContinue es)
    (he : e ∈ es) : ∃ f, IsEnd es e f := by
  -- on what comes behind the game: its link, if there is one, leads there
  refine (wellFoundedOn_continues es).induction (P := fun e => ∃ f, IsEnd es e f) he ?_
  intro e he ih
  cases hs : e.subsumedBy with
  | none =>
    refine ⟨e, he, .refl, hs, ?_⟩
    intro d hd
    rcases hd.cases_head with rfl | ⟨f, hlink, _⟩
    · exact .refl
    · rw [hlink.2.2] at hs
      cases hs
  | some g =>
    obtain ⟨f, hf, rfl, hcontinues⟩ := hes e he g hs
    have hlink : IsLink es e f := ⟨he, hf, hs⟩
    obtain ⟨k, hk⟩ := ih f hf hcontinues
    refine ⟨k, hk.mem, hk.isReached.head hlink, hk.subsumedBy, ?_⟩
    intro d hd
    rcases hd.cases_head with rfl | ⟨f', hlink', hd⟩
    · exact hk.isReached.head hlink
    · obtain rfl := hlink.unique hids hlink'
      exact hk.isPassed d hd

/-- A chain of links leads to games that continue the first. -/
theorem isPrefix_of_reflTransGen (hids : (es.map fun e => e.id).Nodup) (hes : LinksContinue es)
    (h : ReflTransGen (IsLink es) e f) {s : List Text} (hs : e.sans = some s) :
    ∃ u, f.sans = some u ∧ s <+: u := by
  induction h with
  | refl => exact ⟨s, hs, List.prefix_refl s⟩
  | tail _ h ih =>
    obtain ⟨u, hu, hprefix⟩ := ih
    obtain ⟨u', v, hu', hv, hprefix', _⟩ := h.continues hids hes
    obtain rfl : u = u' := Option.some.inj (hu.symm.trans hu')
    exact ⟨v, hv, hprefix.trans hprefix'⟩

end Chains

/-! ## Safe lineages -/

/-- **A safe lineage**: what is marked can be removed, for its moves are kept elsewhere. -/
structure IsSafe (es : List LineageEntry) : Prop where
  /-- A mark is the number of another game, which contains the marked one and comes behind it. -/
  isLink : ∀ e ∈ es, ∀ g, e.subsumedBy = some g → ∃ f ∈ es, f.id = g ∧ f.id ≠ e.id ∧
    isSubset e.movetext f.movetext = .ok true ∧
    ∃ s u, e.sans = some s ∧ f.sans = some u ∧ s <+: u ∧ Precedes (s, e.id) (u, f.id)
  acyclic : ∀ e, ¬TransGen (IsLink es) e e
  /-- All chains of links from a game end at one that is not marked and continues it. -/
  isEnd : ∀ e ∈ es, ∃ f, IsEnd es e f ∧
    ∀ s, e.sans = some s → ∃ u, f.sans = some u ∧ s <+: u
  /-- Malformed texts, and texts of neither moves nor a result, take no part. -/
  isUnlinked : ∀ e ∈ es, ∀ m, Mainline.ofMovetext e.movetext = .ok m →
    (m.failed = true ∨ isBlankText e.movetext = false ∧ m.sans = [] ∧ m.outcome = none) →
    ∀ f, ¬IsLink es e f ∧ ¬IsLink es f e

section

variable {rows : List StoredMovetext}

theorem nodup_id_sketches (hids : (rows.map StoredMovetext.id).Nodup) :
    ((rows.map sketchOf).map GameSketch.id).Nodup := by
  rwa [List.map_map, show GameSketch.id ∘ sketchOf = StoredMovetext.id from rfl]

theorem map_toGameSketch_entries (sketches : List GameSketch) :
    (entries sketches).map LineageEntry.toGameSketch = sketches := by
  rw [entries, List.map_map]
  exact List.map_id _

theorem nodup_id_entries (hids : (rows.map StoredMovetext.id).Nodup) :
    ((entries (rows.map sketchOf)).map fun e => e.id).Nodup := by
  have h := nodup_id_sketches hids
  rwa [← map_toGameSketch_entries (rows.map sketchOf), List.map_map] at h

/-- A link is the mark of a successor that contains the game. -/
theorem isLink_iff (hread : ∀ row ∈ rows, IsReadable row)
    (hids : (rows.map StoredMovetext.id).Nodup) {e f : LineageEntry} :
    IsLink (entries (rows.map sketchOf)) e f ↔ e ∈ entries (rows.map sketchOf) ∧
      IsSuccessor (entries (rows.map sketchOf)) e f ∧
      isSubset e.movetext f.movetext = .ok true := by
  have hordering := isOrdering_ordered hread hids
  have hnodup := nodup_id_sketches hids
  constructor
  · rintro ⟨he, hf, hlink⟩
    obtain ⟨d, hsucc, hsubset, hid⟩ := (subsumedBy_eq_some_iff hordering hnodup he).1 hlink
    obtain rfl : d = f := List.inj_on_of_nodup_map (nodup_id_entries hids) hsucc.1 hf hid
    exact ⟨he, hsucc, hsubset⟩
  · rintro ⟨he, hsucc, hsubset⟩
    exact ⟨he, hsucc.1, (subsumedBy_eq_some_iff hordering hnodup he).2 ⟨f, hsucc, hsubset, rfl⟩⟩

theorem continues_of_isLink (hread : ∀ row ∈ rows, IsReadable row)
    (hids : (rows.map StoredMovetext.id).Nodup) {e f : LineageEntry}
    (h : IsLink (entries (rows.map sketchOf)) e f) : Continues e f := by
  obtain ⟨he, ⟨hf, s, u, hs, hu, hlt, _⟩, hsubset⟩ := (isLink_iff hread hids).1 h
  have hprefix := ((isFaithful_of_mem_entries hread he).isSubset_eq_ok_true_iff
    (isFaithful_of_mem_entries hread hf) hs hu).1 hsubset
  exact ⟨s, u, hs, hu, hprefix.2.2, hlt⟩

/-- A game without a main line is linked to none, and none to it. -/
theorem lacksMainline_of_isLink (hread : ∀ row ∈ rows, IsReadable row)
    (hids : (rows.map StoredMovetext.id).Nodup) {e f : LineageEntry}
    (h : IsLink (entries (rows.map sketchOf)) e f) :
    lacksMainline e = false ∧ lacksMainline f = false := by
  obtain ⟨he, ⟨hf, s, u, hs, hu, _⟩, hsubset⟩ := (isLink_iff hread hids).1 h
  have hmainlines := ((isFaithful_of_mem_entries hread he).isSubset_eq_ok_true_iff
    (isFaithful_of_mem_entries hread hf) hs hu).1 hsubset
  exact ⟨hmainlines.1, hmainlines.2.1⟩

theorem linksContinue_entries (hread : ∀ row ∈ rows, IsReadable row)
    (hids : (rows.map StoredMovetext.id).Nodup) :
    LinksContinue (entries (rows.map sketchOf)) := by
  intro e he g hg
  obtain ⟨f, hsucc, _, rfl⟩ :=
    (subsumedBy_eq_some_iff (isOrdering_ordered hread hids) (nodup_id_sketches hids) he).1 hg
  exact ⟨f, hsucc.1, rfl, continues_of_isLink hread hids ⟨he, hsucc.1, hg⟩⟩

theorem isSafe_entries (hread : ∀ row ∈ rows, IsReadable row)
    (hids : (rows.map StoredMovetext.id).Nodup) : IsSafe (entries (rows.map sketchOf)) where
  isLink e he g hg := by
    obtain ⟨f, hf, rfl, hcontinues⟩ := linksContinue_entries hread hids e he g hg
    have hsubset := ((isLink_iff hread hids).1 ⟨he, hf, hg⟩).2.2
    refine ⟨f, hf, rfl, fun hid => hcontinues.ne ?_, hsubset, hcontinues⟩
    exact (List.inj_on_of_nodup_map (nodup_id_entries hids) hf he hid).symm
  acyclic := not_transGen_isLink (nodup_id_entries hids) (linksContinue_entries hread hids)
  isEnd e he := by
    have hes := linksContinue_entries hread hids
    obtain ⟨f, hf⟩ := exists_isEnd (nodup_id_entries hids) hes he
    exact ⟨f, hf, fun s => isPrefix_of_reflTransGen (nodup_id_entries hids) hes hf.isReached⟩
  isUnlinked e he m hm hnone f := by
    obtain rfl : mainline e = m :=
      Except.ok.inj ((isFaithful_of_mem_entries hread he).ofMovetext_eq.symm.trans hm)
    have hlacks : lacksMainline e = true := by
      rcases hnone with hfailed | ⟨hblank, hsans, houtcome⟩
      · simp [lacksMainline, hasNoMainline, hfailed]
      · simp [lacksMainline, hasNoMainline, hblank, hsans, houtcome]
    constructor
    · intro h
      simp [(lacksMainline_of_isLink hread hids h).1] at hlacks
    · intro h
      simp [(lacksMainline_of_isLink hread hids h).2] at hlacks

end

/-- **The lineage of games of distinct numbers is safe**, whatever their texts are. -/
theorem compute_safe {rows : List StoredMovetext} (hread : ∀ row ∈ rows, IsReadable row)
    (hids : (rows.map StoredMovetext.id).Nodup) :
    ∃ es, compute rows = .ok es ∧ rows.mapM sketch = .ok (es.map LineageEntry.toGameSketch) ∧
      IsSafe es := by
  refine ⟨entries (rows.map sketchOf), compute_eq hread hids, ?_, isSafe_entries hread hids⟩
  rw [map_toGameSketch_entries]
  exact mapM_sketch hread

/-- An absent text, one of junk, a malformed one, an opening, a continuation and its copy. -/
def assortment : List StoredMovetext :=
  [⟨1, none⟩, ⟨2, some "junk".toList⟩, ⟨3, some "1. e4 \x7bopen".toList⟩,
    ⟨4, some "1. e4 *".toList⟩, ⟨6, some "1. e4 e5".toList⟩, ⟨5, some "1. e4! (d4) e5".toList⟩]

theorem compute_safe_assortment :
    (∀ row ∈ assortment, IsReadable row) ∧ (assortment.map StoredMovetext.id).Nodup ∧
    ∃ es, compute assortment = .ok es ∧
      assortment.mapM sketch = .ok (es.map LineageEntry.toGameSketch) ∧ IsSafe es := by
  have hread : ∀ row ∈ assortment, IsReadable row := by
    unfold assortment IsReadable
    decide +kernel
  have hids : (assortment.map StoredMovetext.id).Nodup := by decide
  exact ⟨hread, hids, compute_safe hread hids⟩

end Scoresheet.Lineage
