import Scoresheet.Proofs.Lineage.Neighbours

/-!
# The lineage is complete

Only the next game in the order is asked whether it continues a game, and that is enough: if any
game after it does, the next one does (`parentAt_cases`). Of games with the same moves all but the
last are marked as duplicates (`countP_isExactDuplicate`). The entry of a game does not depend on
the order in which the games were given (`entries_perm`).
-/

namespace Scoresheet.Lineage

open Text Pgn

/-! ## Ordered games -/

/-- The moves of a candidate are those of its text, which can be read and is not malformed. -/
structure Candidate.IsFaithful (c : Candidate) : Prop where
  isReadable : c.IsReadable
  isMalformed : (Transcript.first c.movetext).isMalformed = false
  sans : (Transcript.first c.movetext).sans = c.sans

/-- Games in their order. -/
structure IsOrdering (l : List Candidate) : Prop where
  ascending : Ascending l
  nodup : (l.map Candidate.id).Nodup
  isFaithful : ∀ c ∈ l, c.IsFaithful

/-- Of texts with moves one is contained in another exactly if its moves are a beginning. -/
theorem covers_eq {a b : Candidate} (ha : a.IsFaithful) (hb : b.IsFaithful) (hne : a.sans ≠ []) :
    covers a b = a.sans.isPrefixOf b.sans := by
  have hfailed : ∀ {c : Candidate}, c.IsFaithful → c.sans ≠ [] →
      hasNoMainline c.movetext (Mainline.ofTranscript (Transcript.first c.movetext)) = false := by
    intro c hc hne
    simp [hasNoMainline, Mainline.ofTranscript, hc.isMalformed, hc.sans, hne]
  rw [covers, isSubset_of_not_isOversized ha.isReadable hb.isReadable, ha.sans, hb.sans,
    hfailed ha hne]
  by_cases hb' : b.sans = []
  · obtain ⟨s, ss, hs⟩ := List.exists_cons_of_ne_nil hne
    simp [hb', hs]
  · rw [hfailed hb hb']
    rfl

/-- One game comes right after another. -/
def IsNext (l : List Candidate) (c b : Candidate) : Prop :=
  Precedes c.key b.key ∧ ∀ f ∈ l, Precedes c.key f.key → f = b ∨ Precedes b.key f.key

theorem parentAt_append {p : Candidate → Bool} {c : Candidate} (hc : p c = true)
    (after : List Candidate) : ∀ {before : List Candidate}, (∀ a ∈ before, p a = false) →
    parentAt p (before ++ c :: after) = after.head?.bind fun b =>
      if covers c b then some (b.id, c.sans == b.sans) else none
  | [], _ => by
    cases after with
    | nil => rfl
    | cons b after => rw [List.nil_append, parentAt, if_pos hc]; rfl
  | a :: before, h => by
    have ha : ¬p a = true := by simp [h a List.mem_cons_self]
    have ih := parentAt_append hc after fun d hd => h d (List.mem_cons_of_mem a hd)
    cases before with
    | nil => rw [List.cons_append, List.nil_append, parentAt, if_neg ha]; exact ih
    | cons d before => rw [List.cons_append, List.cons_append, parentAt, if_neg ha]; exact ih

namespace IsOrdering

variable {before after : List Candidate} {a b c f : Candidate}

theorem precedes_of_mem_before (h : IsOrdering (before ++ c :: after)) (ha : a ∈ before) :
    Precedes a.key c.key :=
  (List.pairwise_append.1 h.ascending).2.2 a ha c List.mem_cons_self

theorem id_ne_of_mem_before (h : IsOrdering (before ++ c :: after)) (ha : a ∈ before) :
    (a.id == c.id) = false := by
  rw [beq_eq_false_iff_ne]
  intro heq
  have hc : c ∈ before ++ c :: after := List.mem_append_right _ List.mem_cons_self
  have hac : a = c := List.inj_on_of_nodup_map h.nodup (List.mem_append_left _ ha) hc heq
  exact Precedes.irrefl _ (hac ▸ h.precedes_of_mem_before ha)

/-- Only the games behind a game come after it. -/
theorem mem_after (h : IsOrdering (before ++ c :: after)) (hf : f ∈ before ++ c :: after)
    (hcf : Precedes c.key f.key) : f ∈ after := by
  rcases List.mem_append.1 hf with hf | hf
  · exact absurd hcf (h.precedes_of_mem_before hf).asymm
  · rcases List.mem_cons.1 hf with rfl | hf
    · exact absurd hcf (Precedes.irrefl _)
    · exact hf

theorem isNext (h : IsOrdering (before ++ c :: b :: after)) :
    IsNext (before ++ c :: b :: after) c b := by
  obtain ⟨hfirst, hrest⟩ := List.pairwise_cons.1 (List.pairwise_append.1 h.ascending).2.1
  refine ⟨hfirst b List.mem_cons_self, fun f hf hcf => ?_⟩
  rcases List.mem_cons.1 (h.mem_after hf hcf) with rfl | hf
  · exact Or.inl rfl
  · exact Or.inr ((List.pairwise_cons.1 hrest).1 f hf)

end IsOrdering

/-- **The next game decides**: it is the parent, or no game continues this one. -/
theorem parentAt_cases {l : List Candidate} (h : IsOrdering l) {c : Candidate} (hc : c ∈ l)
    (hne : c.sans ≠ []) :
    (∃ b ∈ l, IsNext l c b ∧ c.sans <+: b.sans ∧
      parentAt (·.id == c.id) l = some (b.id, c.sans == b.sans)) ∨
    ((¬∃ f ∈ l, c.sans <+: f.sans ∧ Precedes c.key f.key) ∧
      parentAt (·.id == c.id) l = none) := by
  obtain ⟨before, after, rfl⟩ := List.append_of_mem hc
  rw [parentAt_append (beq_self_eq_true c.id) after fun a ha => h.id_ne_of_mem_before ha]
  cases after with
  | nil =>
    refine Or.inr ⟨?_, rfl⟩
    rintro ⟨f, hf, _, hcf⟩
    simpa using h.mem_after hf hcf
  | cons b after =>
    have hb : b ∈ before ++ c :: b :: after := by simp
    obtain ⟨hcb, hnext⟩ := h.isNext
    have hcovers := covers_eq (h.isFaithful c hc) (h.isFaithful b hb) hne
    rw [List.head?_cons, Option.bind_some, hcovers]
    by_cases hprefix : c.sans <+: b.sans
    · refine Or.inl ⟨b, hb, ⟨hcb, hnext⟩, hprefix, ?_⟩
      rw [if_pos (List.isPrefixOf_iff_prefix.2 hprefix)]
    · refine Or.inr ⟨?_, if_neg fun hp => hprefix (List.isPrefixOf_iff_prefix.1 hp)⟩
      -- a later game that continues this one would have the next one between
      rintro ⟨f, hf, hcf, hlt⟩
      rcases hnext f hf hlt with rfl | hbf
      · exact hprefix hcf
      · exact hprefix (isPrefix_of_between hcb.not_lt hbf.not_lt hcf)

/-! ## Duplicates -/

theorem IsOrdering.tail {a : Candidate} {l : List Candidate} (h : IsOrdering (a :: l)) :
    IsOrdering l where
  ascending := (List.pairwise_cons.1 h.ascending).2
  nodup := (List.nodup_cons.1 h.nodup).2
  isFaithful c hc := h.isFaithful c (List.mem_cons_of_mem _ hc)

/-- A game is marked as a duplicate by its neighbour. -/
def isDuplicate (l : List Candidate) (c : Candidate) : Bool :=
  (parentAt (·.id == c.id) l).any Prod.snd

/-- A game in front makes no difference to the games behind it. -/
theorem isDuplicate_cons {a c : Candidate} {l : List Candidate} (h : IsOrdering (a :: l))
    (hc : c ∈ l) : isDuplicate (a :: l) c = isDuplicate l c := by
  have hne : ¬(a.id == c.id) = true := by
    intro heq
    refine (List.nodup_cons.1 h.nodup).1 ?_
    rw [beq_iff_eq.1 heq]
    exact List.mem_map_of_mem hc
  cases l with
  | nil => simp at hc
  | cons b l => rw [isDuplicate, parentAt, if_neg hne]; rfl

/-- A game with moves is a duplicate exactly if the game after it has the same moves. -/
theorem isDuplicate_head {a b : Candidate} {l : List Candidate} (h : IsOrdering (a :: b :: l))
    (hne : a.sans ≠ []) : isDuplicate (a :: b :: l) a = (a.sans == b.sans) := by
  have ha := h.isFaithful a List.mem_cons_self
  have hb := h.isFaithful b (List.mem_cons_of_mem _ List.mem_cons_self)
  rw [isDuplicate, parentAt, if_pos (beq_self_eq_true a.id), covers_eq ha hb hne]
  by_cases heq : a.sans = b.sans
  · have hp : a.sans.isPrefixOf b.sans = true :=
      List.isPrefixOf_iff_prefix.2 (heq ▸ List.prefix_refl _)
    rw [if_pos hp]
    rfl
  · have hbeq : (a.sans == b.sans) = false := beq_eq_false_iff_ne.2 heq
    rw [hbeq]
    split <;> rfl

/-- Moves are not met again behind a game of other moves. -/
theorem countP_eq_zero_behind {s : List Text} {a b : Candidate} {l : List Candidate}
    (h : IsOrdering (a :: b :: l)) (ha : a.sans = s) (hb : b.sans ≠ s) :
    (b :: l).countP (·.sans == s) = 0 := by
  rw [List.countP_eq_zero]
  intro c hc hcs
  obtain ⟨hfirst, hlater⟩ := List.pairwise_cons.1 h.ascending
  have hab := hfirst b List.mem_cons_self
  have hcs : c.sans = a.sans := (beq_iff_eq.1 hcs).trans ha.symm
  rcases List.mem_cons.1 hc with rfl | hc
  · exact hb (hcs.trans ha)
  · have hbc := (List.pairwise_cons.1 hlater).1 c hc
    have heq : b.sans = a.sans := eq_of_not_lt hab.not_lt (hcs ▸ hbc.not_lt)
    exact hb (heq.trans ha)

/-- **Of games with the same moves all but one are duplicates.** -/
theorem countP_isDuplicate {s : List Text} (hs : s ≠ []) : ∀ {l : List Candidate}, IsOrdering l →
    l.countP (fun c => c.sans == s && isDuplicate l c) = l.countP (·.sans == s) - 1
  | [], _ => rfl
  | [a], _ => by
    have hdup : isDuplicate [a] a = false := rfl
    by_cases ha : a.sans = s
    · simp [hdup, ha]
    · simp [hdup, ha]
  | a :: b :: l, h => by
    -- the games of the same moves stand together, and only the last has no such game after it
    have ih := countP_isDuplicate hs h.tail
    have hrest : (b :: l).countP (fun c => c.sans == s && isDuplicate (a :: b :: l) c)
        = (b :: l).countP (·.sans == s) - 1 := by
      rw [← ih]
      refine List.countP_congr fun c hc => ?_
      rw [isDuplicate_cons h hc]
    have hcount : (a :: b :: l).countP (·.sans == s)
        = (b :: l).countP (·.sans == s) + if (a.sans == s) = true then 1 else 0 :=
      List.countP_cons
    rw [List.countP_cons, hrest, hcount]
    by_cases ha : a.sans = s
    · have hne : a.sans ≠ [] := ha ▸ hs
      rw [isDuplicate_head h hne, ha]
      by_cases hb : b.sans = s
      · have hpos : 0 < (b :: l).countP (·.sans == s) :=
          List.countP_pos_iff.2 ⟨b, List.mem_cons_self, beq_iff_eq.2 hb⟩
        simp only [hb, beq_self_eq_true, Bool.and_self, if_true]
        omega
      · have hzero := countP_eq_zero_behind h ha hb
        have hbs : (s == b.sans) = false := beq_eq_false_iff_ne.2 (Ne.symm hb)
        simp [hzero, hbs]
    · have has : (a.sans == s) = false := beq_eq_false_iff_ne.2 ha
      simp [has]

/-! ## Entries -/

section Entries

variable {sketches : List GameSketch}

theorem mem_ordered {c : Candidate} :
    c ∈ ordered sketches ↔ ∃ s ∈ sketches, candidate? s = some c := by
  rw [ordered, List.mem_mergeSort, List.mem_filterMap]

/-- An entry that takes part in the ordering, as a candidate. -/
theorem exists_candidate {e : LineageEntry} {s : List Text} (he : e ∈ entries sketches)
    (hs : e.sans = some s) :
    ∃ c ∈ ordered sketches, c.key = (s, e.id) ∧
      e.subsumedBy = (parentAt (·.id == c.id) (ordered sketches)).map Prod.fst ∧
      e.isExactDuplicate = (parentAt (·.id == c.id) (ordered sketches)).any Prod.snd := by
  obtain ⟨k, hk, rfl⟩ := List.mem_map.1 he
  refine ⟨⟨0, k.id, k.movetext, s⟩, mem_ordered.2 ⟨k, hk, ?_⟩, rfl, rfl, rfl⟩
  exact candidate?_eq_some.2 ⟨rfl, rfl, rfl, hs⟩

/-- A candidate's entry. -/
theorem exists_entry {c : Candidate} (hc : c ∈ ordered sketches) :
    ∃ e ∈ entries sketches, e.sans = some c.sans ∧ e.id = c.id := by
  obtain ⟨k, hk, hcandidate⟩ := mem_ordered.1 hc
  obtain ⟨_, hid, _, hsans⟩ := candidate?_eq_some.1 hcandidate
  exact ⟨entryOf k (parentOf sketches k), List.mem_map_of_mem hk, hsans, hid.symm⟩

theorem nodup_id_candidates {rows : List StoredMovetext}
    (hids : (rows.map StoredMovetext.id).Nodup) :
    (((rows.map sketchOf).filterMap candidate?).map Candidate.id).Nodup := by
  rw [List.Nodup, List.pairwise_map, List.pairwise_filterMap, List.pairwise_map]
  rw [List.Nodup, List.pairwise_map] at hids
  refine hids.imp ?_
  intro r r' hne c hc d hd
  obtain ⟨_, hid, _⟩ := candidate?_eq_some.1 hc
  obtain ⟨_, hid', _⟩ := candidate?_eq_some.1 hd
  rw [hid, hid']
  exact hne

/-- Games of distinct numbers whose texts can be read are put in an order. -/
theorem isOrdering_ordered {rows : List StoredMovetext} (hread : ∀ row ∈ rows, IsReadable row)
    (hids : (rows.map StoredMovetext.id).Nodup) : IsOrdering (ordered (rows.map sketchOf)) := by
  have hnodup := nodup_id_candidates hids
  refine ⟨ascending_mergeSort hnodup, ?_, ?_⟩
  · exact ((List.mergeSort_perm _ le).map _).nodup_iff.2 hnodup
  · intro c hc
    obtain ⟨k, hk, hcandidate⟩ := mem_ordered.1 hc
    obtain ⟨row, hrow, rfl⟩ := List.mem_map.1 hk
    obtain ⟨_, _, hmovetext, hsans⟩ := candidate?_eq_some.1 hcandidate
    have hmovetext : c.movetext = row.movetext.getD [] := hmovetext
    unfold sketchOf at hsans
    dsimp only at hsans
    split at hsans
    · cases hsans
    · rename_i hmalformed
      refine ⟨?_, ?_, ?_⟩
      · unfold Candidate.IsReadable
        rw [hmovetext]
        exact hread row hrow
      · rw [hmovetext]
        exact Bool.eq_false_iff.2 hmalformed
      · rw [hmovetext]
        exact Option.some.inj hsans

/-- The entries of distinct numbers do not depend on the order in which the games are given. -/
theorem entries_perm {sketches sketches' : List GameSketch} (hperm : sketches'.Perm sketches)
    (hids : ((sketches.filterMap candidate?).map Candidate.id).Nodup) :
    (entries sketches').Perm (entries sketches) := by
  have hordered : ordered sketches' = ordered sketches :=
    (mergeSort_le_congr hids (hperm.filterMap candidate?).symm).symm
  have hparent : parentOf sketches' = parentOf sketches := by
    funext k
    rw [parentOf, hordered]
    rfl
  rw [entries, hparent]
  exact hperm.map _

/-- An entry counts by its moves exactly if its candidate does. -/
theorem countP_entries {s : List Text} {p : LineageEntry → Bool} {q : Candidate → Bool}
    (h : ∀ k c, candidate? k = some c → p (entryOf k (parentOf sketches k)) = q c) :
    (entries sketches).countP (fun e => e.sans == some s && p e)
      = (ordered sketches).countP fun c => c.sans == s && q c := by
  rw [ordered, (List.mergeSort_perm _ le).countP_eq, List.countP_filterMap, entries,
    List.countP_map]
  refine List.countP_congr fun k _ => ?_
  cases hk : k.sans with
  | none => simp [entryOf, candidate?, hk]
  | some u =>
    have hcandidate : candidate? k = some ⟨0, k.id, k.movetext, u⟩ :=
      candidate?_eq_some.2 ⟨rfl, rfl, rfl, hk⟩
    simp [entryOf, hcandidate, hk, ← h k _ hcandidate]

/-- **Of entries with the same moves all but one are exact duplicates.** -/
theorem countP_isExactDuplicate (h : IsOrdering (ordered sketches)) {s : List Text} (hs : s ≠ []) :
    (entries sketches).countP (fun e => e.sans == some s && e.isExactDuplicate)
      = (entries sketches).countP (·.sans == some s) - 1 := by
  have hduplicates : (entries sketches).countP (fun e => e.sans == some s && e.isExactDuplicate)
      = (ordered sketches).countP fun c => c.sans == s && isDuplicate (ordered sketches) c := by
    refine countP_entries fun k c hk => ?_
    obtain ⟨_, hid, _⟩ := candidate?_eq_some.1 hk
    rw [isDuplicate, hid]
    rfl
  have hall : (entries sketches).countP (·.sans == some s)
      = (ordered sketches).countP (·.sans == s) := by
    simpa only [Bool.and_true] using
      countP_entries (p := fun _ => true) (q := fun _ => true) fun _ _ _ => rfl
  rw [hduplicates, hall]
  exact countP_isDuplicate hs h

end Entries

/-! ## Complete lineages -/

/-- One entry is right after another in the order of moves and numbers. Malformed games take no
part in it. -/
def IsSuccessor (es : List LineageEntry) (e f : LineageEntry) : Prop :=
  f ∈ es ∧ ∃ s u, e.sans = some s ∧ f.sans = some u ∧ Precedes (s, e.id) (u, f.id) ∧
    ∀ h ∈ es, ∀ v, h.sans = some v → Precedes (s, e.id) (v, h.id) →
      h.id = f.id ∨ Precedes (u, f.id) (v, h.id)

/-- **A complete lineage**: every game with moves that another one continues is marked, and by the
one right after it. -/
structure IsComplete (es : List LineageEntry) : Prop where
  /-- A game is marked exactly if some game behind it continues it. -/
  isSome_subsumedBy : ∀ e ∈ es, ∀ s, e.sans = some s → s ≠ [] →
    (e.subsumedBy.isSome = true ↔
      ∃ f ∈ es, ∃ u, f.sans = some u ∧ s <+: u ∧ Precedes (s, e.id) (u, f.id))
  /-- The mark is the number of the next game. -/
  isSuccessor : ∀ e ∈ es, ∀ s, e.sans = some s → s ≠ [] → ∀ g, e.subsumedBy = some g →
    ∃ f u, IsSuccessor es e f ∧ f.id = g ∧ f.sans = some u ∧ s <+: u ∧
      (e.isExactDuplicate = true ↔ s = u)
  /-- A game that is not marked is no duplicate. -/
  isExactDuplicate : ∀ e ∈ es, e.subsumedBy = none → e.isExactDuplicate = false
  /-- Of games with the same moves all but one are duplicates. -/
  countP_isExactDuplicate : ∀ s, s ≠ [] →
    es.countP (fun e => e.sans == some s && e.isExactDuplicate)
      = es.countP (·.sans == some s) - 1

section

variable {sketches : List GameSketch}

/-- The lineage of a game with moves, told by the games themselves. -/
theorem subsumedBy_cases (h : IsOrdering (ordered sketches)) {e : LineageEntry} {s : List Text}
    (he : e ∈ entries sketches) (hs : e.sans = some s) (hne : s ≠ []) :
    (∃ f u, IsSuccessor (entries sketches) e f ∧ e.subsumedBy = some f.id ∧ f.sans = some u ∧
      s <+: u ∧ (e.isExactDuplicate = true ↔ s = u)) ∨
    (e.subsumedBy = none ∧
      ¬∃ f ∈ entries sketches, ∃ u, f.sans = some u ∧ s <+: u ∧ Precedes (s, e.id) (u, f.id)) := by
  obtain ⟨c, hc, hkey, hsubsumedBy, hdup⟩ := exists_candidate he hs
  obtain ⟨rfl, hid⟩ : c.sans = s ∧ c.id = e.id := Prod.ext_iff.1 hkey
  rcases parentAt_cases h hc hne with ⟨b, hb, ⟨hcb, hnext⟩, hprefix, hparent⟩ | ⟨hnone, hparent⟩
  · obtain ⟨f, hf, hfs, hfid⟩ := exists_entry hb
    rw [hparent] at hsubsumedBy hdup
    have hfkey : b.key = (b.sans, f.id) := by rw [Candidate.key, hfid]
    rw [hkey, hfkey] at hcb
    refine Or.inl ⟨f, b.sans, ⟨hf, c.sans, b.sans, hs, hfs, hcb, ?_⟩, ?_, hfs, hprefix, ?_⟩
    · intro g hg v hv hlt
      obtain ⟨d, hd, hdkey, _⟩ := exists_candidate hg hv
      rcases hnext d hd (by rwa [hkey, hdkey]) with rfl | hbd
      · exact Or.inl (by rw [hfid]; exact (congrArg Prod.snd hdkey).symm)
      · exact Or.inr (by rwa [hfkey, hdkey] at hbd)
    · rw [hsubsumedBy, hfid]
      rfl
    · rw [hdup]
      exact beq_iff_eq
  · rw [hparent] at hsubsumedBy
    refine Or.inr ⟨hsubsumedBy, ?_⟩
    rintro ⟨f, hf, u, hu, hprefix, hlt⟩
    obtain ⟨d, hd, hdkey, _⟩ := exists_candidate hf hu
    refine hnone ⟨d, hd, ?_, by rwa [hkey, hdkey]⟩
    rwa [show d.sans = u from congrArg Prod.fst hdkey]

theorem isComplete_entries (h : IsOrdering (ordered sketches)) : IsComplete (entries sketches) where
  isSome_subsumedBy e he s hs hne := by
    rcases subsumedBy_cases h he hs hne with ⟨f, u, hsucc, hf, hu, hprefix, _⟩ | ⟨hnone, hcontinue⟩
    · obtain ⟨hmem, t, v, ht, hv, hlt, _⟩ := hsucc
      obtain rfl : s = t := Option.some.inj (hs.symm.trans ht)
      obtain rfl : u = v := Option.some.inj (hu.symm.trans hv)
      exact iff_of_true (by rw [hf]; rfl) ⟨f, hmem, u, hu, hprefix, hlt⟩
    · refine iff_of_false ?_ hcontinue
      rw [hnone]
      exact Bool.false_ne_true
  isSuccessor e he s hs hne g hg := by
    rcases subsumedBy_cases h he hs hne with ⟨f, u, hsucc, hf, hu, hprefix, hdup⟩ | ⟨hnone, _⟩
    · exact ⟨f, u, hsucc, Option.some.inj (hf.symm.trans hg), hu, hprefix, hdup⟩
    · rw [hnone] at hg
      cases hg
  isExactDuplicate e he hnone := by
    obtain ⟨k, _, rfl⟩ := List.mem_map.1 he
    unfold entryOf at hnone ⊢
    rw [Option.map_eq_none_iff.1 hnone]
    rfl
  countP_isExactDuplicate _ hs := countP_isExactDuplicate h hs

end

/-- **The lineage of games of distinct numbers is complete**, each game's entry is that of its own
text, and no entry depends on the order in which the games are given. -/
theorem compute_complete {rows : List StoredMovetext} (hread : ∀ row ∈ rows, IsReadable row)
    (hids : (rows.map StoredMovetext.id).Nodup) :
    ∃ es, compute rows = .ok es ∧ rows.mapM sketch = .ok (es.map LineageEntry.toGameSketch) ∧
      IsComplete es ∧
      ∀ rows', rows'.Perm rows → ∃ es', compute rows' = .ok es' ∧ es'.Perm es := by
  have hsketches : (entries (rows.map sketchOf)).map LineageEntry.toGameSketch
      = rows.map sketchOf := by
    rw [entries, List.map_map]
    exact List.map_id _
  refine ⟨entries (rows.map sketchOf), compute_eq hread hids, ?_,
    isComplete_entries (isOrdering_ordered hread hids), ?_⟩
  · rw [hsketches]
    exact mapM_sketch hread
  · intro rows' hperm
    have hread' : ∀ row ∈ rows', IsReadable row := fun row hrow => hread row (hperm.mem_iff.1 hrow)
    have hids' : (rows'.map StoredMovetext.id).Nodup := (hperm.map _).nodup_iff.2 hids
    exact ⟨_, compute_eq hread' hids', entries_perm (hperm.map _) (nodup_id_candidates hids)⟩

/-- A game, its beginning and the beginning again with a comment. -/
def openings : List StoredMovetext :=
  [⟨3, some "1. e4 e5".toList⟩, ⟨1, some "1. e4".toList⟩, ⟨2, some "1. e4 \x7bbest\x7d *".toList⟩]

/-- The lineage of three games of one opening. -/
theorem compute_complete_openings :
    (∀ row ∈ openings, IsReadable row) ∧ (openings.map StoredMovetext.id).Nodup ∧
    ∃ es, compute openings = .ok es ∧
      openings.mapM sketch = .ok (es.map LineageEntry.toGameSketch) ∧ IsComplete es ∧
      ∀ rows', rows'.Perm openings → ∃ es', compute rows' = .ok es' ∧ es'.Perm es := by
  have hread : ∀ row ∈ openings, IsReadable row := by
    unfold openings IsReadable
    decide +kernel
  have hids : (openings.map StoredMovetext.id).Nodup := by decide
  exact ⟨hread, hids, compute_complete hread hids⟩

end Scoresheet.Lineage
