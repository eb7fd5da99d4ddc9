import Scoresheet.Proofs.Lineage.Safety

/-!
# Blank games among others without moves

A blank game is contained in every game that has a main line. It stands in the order before all
games with moves, but among those that have none, and some of these have no main line either: texts
of junk or of comments only. Where such a text comes right after a blank game it hides all that lies
behind it, and the blank game stays unmarked (`isSome_subsumedBy_iff`). So a game without a main
line that is added to others unmarks the game right before it, and no other
(`isSome_subsumedBy_perm_iff`).
-/

namespace Scoresheet.Lineage

open Text Pgn

/-! ## Successors -/

/-- A game comes behind another in the order of moves and numbers. -/
def IsBehind (e f : LineageEntry) : Prop :=
  ∃ s u, e.sans = some s ∧ f.sans = some u ∧ Precedes (s, e.id) (u, f.id)

theorem IsSuccessor.isBehind {es : List LineageEntry} {e f : LineageEntry}
    (h : IsSuccessor es e f) : IsBehind e f := by
  obtain ⟨_, s, u, hs, hu, hlt, _⟩ := h
  exact ⟨s, u, hs, hu, hlt⟩

theorem IsSuccessor.unique {es : List LineageEntry} (hids : (es.map fun e => e.id).Nodup)
    {e f f' : LineageEntry} (h : IsSuccessor es e f) (h' : IsSuccessor es e f') : f = f' := by
  obtain ⟨hf, s, u, hs, hu, hlt, hnext⟩ := h
  obtain ⟨hf', t, v, ht, hv, hlt', hnext'⟩ := h'
  obtain rfl : s = t := Option.some.inj (hs.symm.trans ht)
  rcases hnext f' hf' v hv hlt' with hid | hbehind
  · exact (List.inj_on_of_nodup_map hids hf' hf hid).symm
  · rcases hnext' f hf u hu hlt with hid | hbehind'
    · exact List.inj_on_of_nodup_map hids hf hf' hid
    · exact absurd hbehind' hbehind.asymm

theorem IsOrdering.exists_isNext {l : List Candidate} (h : IsOrdering l) {c d : Candidate}
    (hc : c ∈ l) (hd : d ∈ l) (hcd : Precedes c.key d.key) : ∃ b ∈ l, IsNext l c b := by
  obtain ⟨before, after, rfl⟩ := List.append_of_mem hc
  cases after with
  | nil => simpa using h.mem_after hd hcd
  | cons b after => exact ⟨b, by simp, h.isNext⟩

/-- A game with another behind it has a successor. -/
theorem exists_isSuccessor {sketches : List GameSketch} (h : IsOrdering (ordered sketches))
    {e f : LineageEntry} (he : e ∈ entries sketches) (hf : f ∈ entries sketches)
    (hbehind : IsBehind e f) : ∃ j, IsSuccessor (entries sketches) e j := by
  obtain ⟨s, u, hs, hu, hlt⟩ := hbehind
  obtain ⟨c, hc⟩ := exists_candidate? hs
  obtain ⟨d, hd⟩ := exists_candidate? hu
  have hcd : Precedes c.key d.key := by rwa [key_of_candidate? hc hs, key_of_candidate? hd hu]
  obtain ⟨b, hb, hnext⟩ := h.exists_isNext (mem_ordered_of_mem_entries he hc)
    (mem_ordered_of_mem_entries hf hd) hcd
  obtain ⟨j, hj, hjb⟩ := exists_entry_of_mem_ordered hb
  exact ⟨j, (isSuccessor_iff_isNext h hj hc hjb).2 hnext⟩

/-- A lineage has the games of another one and one game more. -/
structure Extends (es es' : List LineageEntry) (r : LineageEntry) : Prop where
  mem : r ∈ es'
  isNew : ∀ g ∈ es, r.id ≠ g.id
  exists_new : ∀ g ∈ es, ∃ g' ∈ es', g'.toGameSketch = g.toGameSketch
  exists_old : ∀ g' ∈ es', g' = r ∨ ∃ g ∈ es, g'.toGameSketch = g.toGameSketch

/-- **A game added to others becomes the successor of a game, or that keeps its own.** -/
theorem Extends.isSuccessor_or {es es' : List LineageEntry} {e e' f r : LineageEntry}
    (h : Extends es es' r) (hids : (es.map fun e => e.id).Nodup) (hsucc : IsSuccessor es e f)
    (hee : e'.toGameSketch = e.toGameSketch) :
    IsSuccessor es' e' r ∨ ∃ f', f'.toGameSketch = f.toGameSketch ∧ IsSuccessor es' e' f' := by
  obtain ⟨hf, s, u, hs, hu, hlt, hnext⟩ := hsucc
  obtain ⟨f', hf', hff⟩ := h.exists_new f hf
  have hs' : e'.sans = some s := by rw [hee, hs]
  have hu' : f'.sans = some u := by rw [hff, hu]
  by_cases hbetween : ∃ w, r.sans = some w ∧ Precedes (s, e.id) (w, r.id) ∧
      Precedes (w, r.id) (u, f.id)
  · obtain ⟨w, hw, her, hrf⟩ := hbetween
    refine Or.inl ⟨h.mem, s, w, hs', hw, by rwa [hee], ?_⟩
    intro k hk v hv hek
    rcases h.exists_old k hk with rfl | ⟨g, hg, hkg⟩
    · exact Or.inl rfl
    · right
      rw [hkg] at hv hek ⊢
      rw [hee] at hek
      rcases hnext g hg v hv hek with hid | hbehind
      · obtain rfl := List.inj_on_of_nodup_map hids hg hf hid
        obtain rfl : u = v := Option.some.inj (hu.symm.trans hv)
        exact hrf
      · exact hrf.trans hbehind
  · refine Or.inr ⟨f', hff, hf', s, u, hs', hu', by rwa [hee, hff], ?_⟩
    intro k hk v hv hek
    rw [hee] at hek
    rw [hff]
    rcases h.exists_old k hk with rfl | ⟨g, hg, hkg⟩
    · rcases Precedes.trichotomy (u, f.id) (v, k.id) with hlt' | heq | hlt'
      · exact Or.inr hlt'
      · exact absurd (congrArg Prod.snd heq).symm (h.isNew f hf)
      · exact absurd ⟨v, hv, hek, hlt'⟩ hbetween
    · rw [hkg] at hv hek ⊢
      exact hnext g hg v hv hek

/-! ## Entries of readable rows -/

section

variable {rows : List StoredMovetext} {e e' : LineageEntry}

theorem mem_map_sketchOf {k : GameSketch} :
    k ∈ rows.map sketchOf ↔ ∃ e ∈ entries (rows.map sketchOf), e.toGameSketch = k := by
  rw [← List.mem_map, map_toGameSketch_entries]

theorem isSome_subsumedBy_eq (hread : ∀ row ∈ rows, IsReadable row)
    (hids : (rows.map StoredMovetext.id).Nodup) (he : e ∈ entries (rows.map sketchOf)) :
    e.subsumedBy.isSome = true ↔ ∃ f, IsSuccessor (entries (rows.map sketchOf)) e f ∧
      isSubset e.movetext f.movetext = .ok true := by
  have hmark := fun g => subsumedBy_eq_some_iff (g := g) (isOrdering_ordered hread hids)
    (nodup_id_sketches hids) he
  rw [Option.isSome_iff_exists]
  constructor
  · rintro ⟨g, hg⟩
    obtain ⟨f, hsucc, hsubset, _⟩ := (hmark g).1 hg
    exact ⟨f, hsucc, hsubset⟩
  · rintro ⟨f, hsucc, hsubset⟩
    exact ⟨f.id, (hmark f.id).2 ⟨f, hsucc, hsubset, rfl⟩⟩

/-- A game behind another one contains it only if it has a main line. -/
theorem lacksMainline_of_isSubset (hread : ∀ row ∈ rows, IsReadable row)
    {f : LineageEntry} (he : e ∈ entries (rows.map sketchOf))
    (hf : f ∈ entries (rows.map sketchOf)) (hbehind : IsBehind e f)
    (hsubset : isSubset e.movetext f.movetext = .ok true) :
    lacksMainline e = false ∧ lacksMainline f = false := by
  obtain ⟨s, u, hs, hu, _⟩ := hbehind
  have hmainlines := ((isFaithful_of_mem_entries hread he).isSubset_eq_ok_true_iff
    (isFaithful_of_mem_entries hread hf) hs hu).1 hsubset
  exact ⟨hmainlines.1, hmainlines.2.1⟩

theorem sans_of_isBlankText (he : IsFaithful e) (hblank : isBlankText e.movetext = true) :
    e.sans = some [] := by
  have hfirst : Transcript.first e.movetext = .empty := by
    rw [Transcript.first, readGame_of_isBlankText hblank]
    rfl
  rw [he.sans, hfirst]
  rfl

/-- **A game without moves is marked exactly if a game behind contains it and the very next one
has a main line.** -/
theorem isSome_subsumedBy_iff (hread : ∀ row ∈ rows, IsReadable row)
    (hids : (rows.map StoredMovetext.id).Nodup) (he : e ∈ entries (rows.map sketchOf))
    (hs : e.sans = some []) :
    e.subsumedBy.isSome = true ↔
      (∃ f ∈ entries (rows.map sketchOf), IsBehind e f ∧
        isSubset e.movetext f.movetext = .ok true) ∧
      ¬∃ j, IsSuccessor (entries (rows.map sketchOf)) e j ∧ lacksMainline j = true := by
  rw [isSome_subsumedBy_eq hread hids he]
  constructor
  · rintro ⟨f, hsucc, hsubset⟩
    refine ⟨⟨f, hsucc.1, hsucc.isBehind, hsubset⟩, ?_⟩
    rintro ⟨j, hj, hlacks⟩
    obtain rfl := hsucc.unique (nodup_id_entries hids) hj
    rw [(lacksMainline_of_isSubset hread he hsucc.1 hsucc.isBehind hsubset).2] at hlacks
    cases hlacks
  · rintro ⟨⟨f, hf, hbehind, hsubset⟩, hnext⟩
    obtain ⟨j, hj⟩ := exists_isSuccessor (isOrdering_ordered hread hids) he hf hbehind
    have hlacks := (lacksMainline_of_isSubset hread he hf hbehind hsubset).1
    have hlacks' : lacksMainline j = false := Bool.eq_false_iff.2 fun h => hnext ⟨j, hj, h⟩
    obtain ⟨hjmem, _, u, _, hu, _⟩ := id hj
    refine ⟨j, hj, ?_⟩
    exact ((isFaithful_of_mem_entries hread he).isSubset_eq_ok_true_iff
      (isFaithful_of_mem_entries hread hjmem) hs hu).2 ⟨hlacks, hlacks', List.nil_prefix⟩

end

/-! ## Added games -/

section

variable {rows rows' : List StoredMovetext} {row : StoredMovetext}

theorem nodup_id_of_perm_cons (hperm : rows'.Perm (row :: rows))
    (hids' : (rows'.map StoredMovetext.id).Nodup) :
    row.id ∉ rows.map StoredMovetext.id ∧ (rows.map StoredMovetext.id).Nodup :=
  List.nodup_cons.1 ((hperm.map StoredMovetext.id).nodup_iff.1 hids')

theorem exists_extends_entries (hperm : rows'.Perm (row :: rows))
    (hids' : (rows'.map StoredMovetext.id).Nodup) :
    ∃ r, r.toGameSketch = sketchOf row ∧
      Extends (entries (rows.map sketchOf)) (entries (rows'.map sketchOf)) r := by
  have hmem : ∀ q, q ∈ rows' ↔ q = row ∨ q ∈ rows := fun q => hperm.mem_iff.trans List.mem_cons
  obtain ⟨r, hr, hrow⟩ := mem_map_sketchOf.1
    (List.mem_map_of_mem (f := sketchOf) ((hmem row).2 (Or.inl rfl)))
  refine ⟨r, hrow, hr, ?_, ?_, ?_⟩
  · intro g hg hid
    obtain ⟨q, hq, hqg⟩ := List.mem_map.1 (mem_map_sketchOf.2 ⟨g, hg, rfl⟩)
    refine (nodup_id_of_perm_cons hperm hids').1 ?_
    rw [show row.id = r.id by rw [hrow]; rfl, hid, ← hqg]
    exact List.mem_map_of_mem hq
  · intro g hg
    obtain ⟨q, hq, hqg⟩ := List.mem_map.1 (mem_map_sketchOf.2 ⟨g, hg, rfl⟩)
    exact mem_map_sketchOf.1 (List.mem_map.2 ⟨q, (hmem q).2 (Or.inr hq), hqg⟩)
  · intro g' hg'
    obtain ⟨q, hq, hqg⟩ := List.mem_map.1 (mem_map_sketchOf.2 ⟨g', hg', rfl⟩)
    rcases (hmem q).1 hq with rfl | hq
    · refine Or.inl (List.inj_on_of_nodup_map (nodup_id_entries hids') hg' hr ?_)
      rw [← hqg, ← hrow]
    · obtain ⟨g, hg, hgq⟩ := mem_map_sketchOf.1 (List.mem_map_of_mem (f := sketchOf) hq)
      exact Or.inr ⟨g, hg, by rw [← hqg, hgq]⟩

/-- **A game without a main line that is added to others unmarks only the game right before it.** -/
theorem isSome_subsumedBy_perm_iff (hread' : ∀ row ∈ rows', IsReadable row)
    (hids' : (rows'.map StoredMovetext.id).Nodup) (hperm : rows'.Perm (row :: rows))
    (hlacks : hasNoMainline (row.movetext.getD [])
      (Mainline.ofTranscript (Transcript.first (row.movetext.getD []))) = true)
    {e e' : LineageEntry} (he : e ∈ entries (rows.map sketchOf))
    (he' : e' ∈ entries (rows'.map sketchOf)) (hid : e'.id = e.id)
    (hmarked : e.subsumedBy.isSome = true) :
    e'.subsumedBy.isSome = true ↔
      ¬∃ j, IsSuccessor (entries (rows'.map sketchOf)) e' j ∧ j.id = row.id := by
  have hread : ∀ q ∈ rows, IsReadable q :=
    fun q hq => hread' q (hperm.mem_iff.2 (List.mem_cons_of_mem _ hq))
  have hids := (nodup_id_of_perm_cons hperm hids').2
  have hinj := List.inj_on_of_nodup_map (nodup_id_entries hids')
  obtain ⟨r, hrow, hextends⟩ := exists_extends_entries hperm hids'
  have hrid : r.id = row.id := by rw [hrow]; rfl
  have hee : e'.toGameSketch = e.toGameSketch := by
    obtain ⟨e'', he'', hee⟩ := hextends.exists_new e he
    obtain rfl : e'' = e' := hinj he'' he' (by rw [hid, hee])
    exact hee
  rw [isSome_subsumedBy_eq hread' hids' he']
  constructor
  · rintro ⟨f, hsucc, hsubset⟩ ⟨j, hj, hjid⟩
    obtain rfl := hsucc.unique (nodup_id_entries hids') hj
    have hmain := (lacksMainline_of_isSubset hread' he' hsucc.1 hsucc.isBehind hsubset).2
    obtain rfl : f = r := hinj hsucc.1 hextends.mem (hjid.trans hrid.symm)
    rw [lacksMainline, mainline, hrow] at hmain
    exact Bool.false_ne_true (hmain.symm.trans hlacks)
  · intro hnext
    obtain ⟨f, hsucc, hsubset⟩ := (isSome_subsumedBy_eq hread hids he).1 hmarked
    rcases hextends.isSuccessor_or (nodup_id_entries hids) hsucc hee with hr | ⟨f', hff, hf'⟩
    · exact absurd ⟨r, hr, hrid⟩ hnext
    · exact ⟨f', hf', by rw [hee, hff]; exact hsubset⟩

end

/-! ## Lineages -/

/-- **Blank games are marked unless a game without a main line comes right after them.** Such a
game, added to others, unmarks no game but the one right before it. -/
theorem compute_blank {rows : List StoredMovetext} (hread : ∀ row ∈ rows, IsReadable row)
    (hids : (rows.map StoredMovetext.id).Nodup) :
    ∃ es, compute rows = .ok es ∧ rows.mapM sketch = .ok (es.map LineageEntry.toGameSketch) ∧
      (∀ e ∈ es, isBlankText e.movetext = true →
        (e.subsumedBy.isSome = true ↔
          (∃ f ∈ es, IsBehind e f ∧ isSubset e.movetext f.movetext = .ok true) ∧
          ¬∃ j, IsSuccessor es e j ∧ lacksMainline j = true)) ∧
      ∀ row rows', rows'.Perm (row :: rows) → IsReadable row → row.id ∉ rows.map StoredMovetext.id →
        (∀ m, Mainline.ofMovetext (row.movetext.getD []) = .ok m →
          hasNoMainline (row.movetext.getD []) m = true) →
        ∃ es', compute rows' = .ok es' ∧
          ∀ e ∈ es, ∀ e' ∈ es', e'.id = e.id → e.subsumedBy.isSome = true →
            (e'.subsumedBy.isSome = true ↔ ¬∃ j, IsSuccessor es' e' j ∧ j.id = row.id) := by
  refine ⟨entries (rows.map sketchOf), compute_eq hread hids, ?_, ?_, ?_⟩
  · rw [map_toGameSketch_entries]
    exact mapM_sketch hread
  · intro e he hblank
    exact isSome_subsumedBy_iff hread hids he
      (sans_of_isBlankText (isFaithful_of_mem_entries hread he) hblank)
  · intro row rows' hperm hrow hnew hlacks
    have hread' : ∀ q ∈ rows', IsReadable q := by
      intro q hq
      rcases List.mem_cons.1 (hperm.mem_iff.1 hq) with rfl | hq
      · exact hrow
      · exact hread q hq
    have hids' : (rows'.map StoredMovetext.id).Nodup :=
      (hperm.map StoredMovetext.id).nodup_iff.2 (List.nodup_cons.2 ⟨hnew, hids⟩)
    refine ⟨entries (rows'.map sketchOf), compute_eq hread' hids', ?_⟩
    intro e he e' he' hid hmarked
    exact isSome_subsumedBy_perm_iff hread' hids' hperm
      (hlacks _ (ofMovetext_of_not_isOversized hrow)) he he' hid hmarked

/-- A blank game, a text of junk and a game with a move. -/
def hidden : List StoredMovetext :=
  [⟨1, none⟩, ⟨2, some "junk".toList⟩, ⟨3, some "1. e4".toList⟩]

theorem isReadable_hidden : ∀ row ∈ hidden, IsReadable row := by
  unfold hidden IsReadable
  decide +kernel

theorem nodup_id_hidden : (hidden.map StoredMovetext.id).Nodup := by decide

theorem compute_blank_hidden :
    (∀ row ∈ hidden, IsReadable row) ∧ (hidden.map StoredMovetext.id).Nodup ∧
    ∃ es, compute hidden = .ok es ∧ ∀ e ∈ es, isBlankText e.movetext = true →
      (e.subsumedBy.isSome = true ↔
        (∃ f ∈ es, IsBehind e f ∧ isSubset e.movetext f.movetext = .ok true) ∧
        ¬∃ j, IsSuccessor es e j ∧ lacksMainline j = true) := by
  obtain ⟨es, hes, _, hblank, _⟩ := compute_blank isReadable_hidden nodup_id_hidden
  exact ⟨isReadable_hidden, nodup_id_hidden, es, hes, hblank⟩

/-- Junk hides a game with a move from a blank one. -/
theorem blank_game_unmarked :
    ∃ es, compute hidden = .ok es ∧ ∃ e ∈ es, ∃ f ∈ es, isBlankText e.movetext = true ∧
      IsBehind e f ∧ isSubset e.movetext f.movetext = .ok true ∧ e.subsumedBy = none := by
  refine ⟨entries (hidden.map sketchOf), compute_eq isReadable_hidden nodup_id_hidden, ?_⟩
  have hordered : ordered (hidden.map sketchOf)
      = [⟨0, 1, [], []⟩, ⟨0, 2, "junk".toList, []⟩, ⟨0, 3, "1. e4".toList, ["e4".toList]⟩] := by
    have hsketches : (hidden.map sketchOf).filterMap candidate?
        = [⟨0, 1, [], []⟩, ⟨0, 2, "junk".toList, []⟩, ⟨0, 3, "1. e4".toList, ["e4".toList]⟩] := by
      decide +kernel
    rw [ordered, hsketches]
    exact List.mergeSort_of_pairwise (by decide +kernel)
  refine ⟨_, List.mem_map_of_mem (List.mem_map_of_mem List.mem_cons_self), _,
    List.mem_map_of_mem (List.mem_map_of_mem (List.mem_of_getElem? (i := 2) rfl)), rfl, ?_, ?_, ?_⟩
  · exact ⟨[], ["e4".toList], by decide +kernel, by decide +kernel, Or.inl (by decide +kernel)⟩
  · decide +kernel
  · show (parentOf (hidden.map sketchOf) (sketchOf ⟨1, none⟩)).map Prod.fst = none
    rw [parentOf, hordered]
    decide +kernel

end Scoresheet.Lineage
