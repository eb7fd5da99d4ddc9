import Scoresheet.Proofs.Lineage.Safety

/-!
# What duplicates have in common

An exact duplicate has the moves of the game it is linked to (`exists_of_isExactDuplicate`), so both
have the same number of moves. They have the same fingerprint too, unless just one of the two texts
is blank: a blank text has no fingerprint, while a text that says something and has no moves has
that of the initial position (`movesHash_eq_iff`).
-/

namespace Scoresheet.Lineage

open Text Pgn Chess

/-! ## Texts of the same moves -/

section Texts

variable {m m' : Text} {p p' : Mainline}

theorem movesHash_of_not_failed (h : Mainline.ofMovetext m = .ok p) (hfailed : p.failed = false) :
    movesHash m = .ok (if isBlankText m then none
      else some (lastPosition (replay .initial p.sans)).hash) := by
  cases hb : isBlankText m with
  | true =>
    rw [movesHash, if_pos hb]
    rfl
  | false => exact movesHash_of_ofMovetext h hb hfailed

/-- **Texts of the same moves have the same fingerprint if both are blank or neither is**, and only
then. -/
theorem movesHash_eq_iff (h : Mainline.ofMovetext m = .ok p) (h' : Mainline.ofMovetext m' = .ok p')
    (hfailed : p.failed = false) (hfailed' : p'.failed = false) (hsans : p.sans = p'.sans) :
    ∃ hash hash', movesHash m = .ok hash ∧ movesHash m' = .ok hash' ∧
      (hash = hash' ↔ isBlankText m = isBlankText m') := by
  refine ⟨_, _, movesHash_of_not_failed h hfailed, movesHash_of_not_failed h' hfailed', ?_⟩
  rw [hsans]
  cases isBlankText m <;> cases isBlankText m' <;> simp

end Texts

/-! ## Entries -/

section Entries

variable {rows : List StoredMovetext} {e g : LineageEntry}

/-- A duplicate has the moves of the game it is linked to. -/
theorem exists_of_isExactDuplicate {sketches : List GameSketch}
    (h : IsOrdering (ordered sketches)) (hids : (sketches.map GameSketch.id).Nodup)
    (he : e ∈ entries sketches) (hdup : e.isExactDuplicate = true) :
    ∃ g ∈ entries sketches, e.subsumedBy = some g.id ∧ ∃ s, e.sans = some s ∧ g.sans = some s := by
  have hlinked : e.subsumedBy ≠ none := by
    intro hnone
    rw [(isComplete_entries h).isExactDuplicate e he hnone] at hdup
    cases hdup
  obtain ⟨number, hnumber⟩ := Option.ne_none_iff_exists'.1 hlinked
  obtain ⟨_, ⟨_, s, _, hs, _⟩, _⟩ := (subsumedBy_eq_some_iff h hids he).1 hnumber
  obtain ⟨c, hc, hkey, hsubsumedBy, hduplicate⟩ := exists_candidate he hs
  rw [hduplicate, Option.any_eq_true] at hdup
  obtain ⟨parent, hparent, hsame⟩ := hdup
  obtain ⟨b, hb, _, _, rfl⟩ := (parentAt_eq_some_iff h hc).1 hparent
  obtain ⟨g, hg, hgs, hgid⟩ := exists_entry hb
  refine ⟨g, hg, ?_, s, hs, ?_⟩
  · rw [hsubsumedBy, hparent, hgid]
    rfl
  · rw [hgs, ← beq_iff_eq.1 hsame]
    exact congrArg some (congrArg Prod.fst hkey)

/-- The fingerprint and the number of moves of an entry are those of its text. -/
theorem analyses_of_mem_entries (hread : ∀ row ∈ rows, IsReadable row)
    (he : e ∈ entries (rows.map sketchOf)) :
    movesHash e.movetext = .ok e.hash ∧ e.plyCount = (mainline e).plyCount := by
  obtain ⟨k, hk, rfl⟩ := List.mem_map.1 he
  obtain ⟨row, hrow, rfl⟩ := List.mem_map.1 hk
  exact ⟨movesHash_of_not_isOversized (hread row hrow), rfl⟩

/-- What a duplicate has in common with the game it is linked to. -/
structure AgreesWith (e g : LineageEntry) : Prop where
  sans : e.sans = g.sans
  plyCount : e.plyCount = g.plyCount
  hash : e.hash = g.hash ↔ isBlankText e.movetext = isBlankText g.movetext

theorem agreesWith_of_sans (hread : ∀ row ∈ rows, IsReadable row)
    (he : e ∈ entries (rows.map sketchOf)) (hg : g ∈ entries (rows.map sketchOf)) {s : List Text}
    (hes : e.sans = some s) (hgs : g.sans = some s) : AgreesWith e g := by
  have hefaithful := isFaithful_of_mem_entries hread he
  have hgfaithful := isFaithful_of_mem_entries hread hg
  obtain ⟨hehash, heplies⟩ := analyses_of_mem_entries hread he
  obtain ⟨hghash, hgplies⟩ := analyses_of_mem_entries hread hg
  obtain ⟨hefailed, hesans⟩ := hefaithful.sans_mainline hes
  obtain ⟨hgfailed, hgsans⟩ := hgfaithful.sans_mainline hgs
  have hsans : (mainline e).sans = (mainline g).sans := hesans.trans hgsans.symm
  refine ⟨hes.trans hgs.symm, ?_, ?_⟩
  · rw [heplies, hgplies, Mainline.plyCount, Mainline.plyCount, hefailed, hgfailed, hsans]
  · obtain ⟨hash, hash', hh, hh', hiff⟩ := movesHash_eq_iff hefaithful.ofMovetext_eq
      hgfaithful.ofMovetext_eq hefailed hgfailed hsans
    rwa [Except.ok.inj (hehash.symm.trans hh), Except.ok.inj (hghash.symm.trans hh')]

end Entries

/-- **Exact duplicates agree.** In the lineage of games of distinct numbers an exact duplicate is
linked to a game of the same moves. The two have the same number of moves, and the same fingerprint
unless just one of their texts is blank; that goes for any two texts of the same moves. -/
theorem compute_duplicates {rows : List StoredMovetext} (hread : ∀ row ∈ rows, IsReadable row)
    (hids : (rows.map StoredMovetext.id).Nodup) :
    (∃ es, compute rows = .ok es ∧ rows.mapM sketch = .ok (es.map LineageEntry.toGameSketch) ∧
      ∀ e ∈ es, e.isExactDuplicate = true →
        (∃ g ∈ es, e.subsumedBy = some g.id) ∧
        ∀ g ∈ es, e.subsumedBy = some g.id → AgreesWith e g) ∧
    ∀ m m' p p', Mainline.ofMovetext m = .ok p → Mainline.ofMovetext m' = .ok p' →
      p.failed = false → p'.failed = false → p.sans = p'.sans →
      ∃ hash hash', movesHash m = .ok hash ∧ movesHash m' = .ok hash' ∧
        (hash = hash' ↔ isBlankText m = isBlankText m') := by
  refine ⟨⟨_, compute_eq hread hids, ?_, ?_⟩, fun _ _ _ _ => movesHash_eq_iff⟩
  · rw [map_toGameSketch_entries]
    exact mapM_sketch hread
  · intro e he hdup
    obtain ⟨g, hg, hlink, s, hes, hgs⟩ := exists_of_isExactDuplicate (isOrdering_ordered hread hids)
      (nodup_id_sketches hids) he hdup
    refine ⟨⟨g, hg, hlink⟩, ?_⟩
    intro g' hg' hlink'
    obtain rfl : g' = g := List.inj_on_of_nodup_map (nodup_id_entries hids) hg' hg
      (Option.some.inj (hlink'.symm.trans hlink))
    exact agreesWith_of_sans hread he hg' hes hgs

/-! ### Two games -/

/-- Of two games in their order the first is marked if its parent is the second and has the same
moves. -/
theorem exists_marked {a b : StoredMovetext} {c d : Candidate}
    (hcandidates : ([a, b].map sketchOf).filterMap candidate? = [c, d])
    (hle : [c, d].Pairwise fun x y => le x y = true)
    (hparent : parentAt (·.id == a.id) [c, d] = some (b.id, true)) :
    ∃ e ∈ entries ([a, b].map sketchOf), ∃ g ∈ entries ([a, b].map sketchOf),
      e.isExactDuplicate = true ∧ e.subsumedBy = some g.id ∧
        e.toGameSketch = sketchOf a ∧ g.toGameSketch = sketchOf b := by
  have hordered : ordered ([a, b].map sketchOf) = [c, d] := by
    rw [ordered, hcandidates]
    exact List.mergeSort_of_pairwise hle
  have hmarked : parentOf ([a, b].map sketchOf) (sketchOf a) = some (b.id, true) := by
    rw [parentOf, hordered]
    exact hparent
  refine ⟨_, List.mem_map_of_mem (List.mem_map_of_mem List.mem_cons_self), _,
    List.mem_map_of_mem (List.mem_map_of_mem (List.mem_of_getElem? (i := 1) rfl)), ?_, ?_, rfl, rfl⟩
  · rw [hmarked]
    rfl
  · rw [hmarked]
    rfl

/-- A blank game and one that is nothing but a result. -/
def moveless : List StoredMovetext := [⟨1, some []⟩, ⟨2, some "*".toList⟩]

theorem isReadable_moveless : ∀ row ∈ moveless, IsReadable row := by
  unfold moveless IsReadable
  decide +kernel

theorem nodup_id_moveless : (moveless.map StoredMovetext.id).Nodup := by decide

/-- The blank game is marked as a duplicate and has no fingerprint. -/
theorem marked_moveless :
    ∃ e ∈ entries (moveless.map sketchOf), ∃ g ∈ entries (moveless.map sketchOf),
      e.isExactDuplicate = true ∧ e.subsumedBy = some g.id ∧ e.hash ≠ g.hash := by
  obtain ⟨e, he, g, hg, hdup, hlink, hea, hgb⟩ := exists_marked (a := ⟨1, some []⟩)
    (b := ⟨2, some "*".toList⟩) (c := ⟨0, 1, [], []⟩) (d := ⟨0, 2, ['*'], []⟩)
    (by decide +kernel) (by decide +kernel) (by decide +kernel)
  refine ⟨e, he, g, hg, hdup, hlink, ?_⟩
  rw [hea, hgb]
  decide +kernel

/-- A move in two spellings. -/
def respelled : List StoredMovetext := [⟨1, some "1. e4".toList⟩, ⟨2, some "e4!".toList⟩]

theorem isReadable_respelled : ∀ row ∈ respelled, IsReadable row := by
  unfold respelled IsReadable
  decide +kernel

theorem nodup_id_respelled : (respelled.map StoredMovetext.id).Nodup := by decide

theorem marked_respelled :
    ∃ e ∈ entries (respelled.map sketchOf), ∃ g ∈ entries (respelled.map sketchOf),
      e.isExactDuplicate = true ∧ e.subsumedBy = some g.id ∧
        isBlankText e.movetext = isBlankText g.movetext := by
  obtain ⟨e, he, g, hg, hdup, hlink, hea, hgb⟩ := exists_marked (a := ⟨1, some "1. e4".toList⟩)
    (b := ⟨2, some "e4!".toList⟩) (c := ⟨0, 1, "1. e4".toList, ["e4".toList]⟩)
    (d := ⟨0, 2, "e4!".toList, ["e4".toList]⟩)
    (by decide +kernel) (by decide +kernel) (by decide +kernel)
  refine ⟨e, he, g, hg, hdup, hlink, ?_⟩
  rw [hea, hgb]
  decide

/-- A blank duplicate lacks the fingerprint of the game it is linked to; two spellings of one game
share it. -/
theorem compute_duplicates_respelled :
    ((∀ row ∈ moveless, IsReadable row) ∧ (moveless.map StoredMovetext.id).Nodup ∧
      ∃ es, compute moveless = .ok es ∧ ∃ e ∈ es, ∃ g ∈ es, e.isExactDuplicate = true ∧
        e.subsumedBy = some g.id ∧ AgreesWith e g ∧ e.hash ≠ g.hash) ∧
    (∀ row ∈ respelled, IsReadable row) ∧ (respelled.map StoredMovetext.id).Nodup ∧
      ∃ es, compute respelled = .ok es ∧ ∃ e ∈ es, ∃ g ∈ es, e.isExactDuplicate = true ∧
        e.subsumedBy = some g.id ∧ AgreesWith e g ∧ e.hash = g.hash := by
  refine ⟨⟨isReadable_moveless, nodup_id_moveless, ?_⟩, isReadable_respelled, nodup_id_respelled,
    ?_⟩
  · obtain ⟨⟨es, hes, _, hdup⟩, _⟩ := compute_duplicates isReadable_moveless nodup_id_moveless
    obtain rfl := Except.ok.inj ((compute_eq isReadable_moveless nodup_id_moveless).symm.trans hes)
    obtain ⟨e, he, g, hg, hmarked, hlink, hne⟩ := marked_moveless
    exact ⟨_, hes, e, he, g, hg, hmarked, hlink, (hdup e he hmarked).2 g hg hlink, hne⟩
  · obtain ⟨⟨es, hes, _, hdup⟩, _⟩ := compute_duplicates isReadable_respelled nodup_id_respelled
    obtain rfl := Except.ok.inj
      ((compute_eq isReadable_respelled nodup_id_respelled).symm.trans hes)
    obtain ⟨e, he, g, hg, hmarked, hlink, hblank⟩ := marked_respelled
    have hagree := (hdup e he hmarked).2 g hg hlink
    exact ⟨_, hes, e, he, g, hg, hmarked, hlink, hagree, hagree.hash.2 hblank⟩

/-- A duplicate can lack the fingerprint of the game it is linked to. -/
theorem duplicate_without_hash :
    ∃ es, compute moveless = .ok es ∧ ∃ e ∈ es, ∃ g ∈ es, e.isExactDuplicate = true ∧
      e.subsumedBy = some g.id ∧ e.hash ≠ g.hash :=
  ⟨_, compute_eq isReadable_moveless nodup_id_moveless, marked_moveless⟩

end Scoresheet.Lineage
