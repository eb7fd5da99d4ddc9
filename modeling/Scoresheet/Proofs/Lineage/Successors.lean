import Scoresheet.Proofs.Lineage.Completeness

/-!
# What a link says

A game is linked to the game right after it in the order of moves and numbers, and to no other: the
link stands exactly if the text of that game contains the game's own (`subsumedBy_eq_some_iff`).
So nothing more has to be known about the computation of a lineage than which game comes next and
when one text contains another (`isSubset_eq_ok_true_iff`).
-/

namespace Scoresheet.Lineage

open Text Pgn

/-! ## Neighbours -/

theorem covers_iff {a b : Candidate} :
    covers a b = true ↔ isSubset a.movetext b.movetext = .ok true := by
  unfold covers
  cases isSubset a.movetext b.movetext with
  | ok answer => simp
  | error e => simp

theorem IsNext.unique {l : List Candidate} {c b b' : Candidate} (hb : b ∈ l) (hb' : b' ∈ l)
    (h : IsNext l c b) (h' : IsNext l c b') : b = b' := by
  rcases h.2 b' hb' h'.1 with heq | hlt
  · exact heq.symm
  · rcases h'.2 b hb h.1 with heq | hlt'
    · exact heq
    · exact absurd hlt' hlt.asymm

/-- What the neighbour says about a game is said by the game right after it. -/
theorem parentAt_eq_some_iff {l : List Candidate} (h : IsOrdering l) {c : Candidate} (hc : c ∈ l)
    {p : Parent} :
    parentAt (·.id == c.id) l = some p ↔
      ∃ b ∈ l, IsNext l c b ∧ covers c b = true ∧ p = (b.id, c.sans == b.sans) := by
  obtain ⟨before, after, rfl⟩ := List.append_of_mem hc
  rw [parentAt_append (beq_self_eq_true c.id) after fun a ha => h.id_ne_of_mem_before ha]
  cases after with
  | nil =>
    refine iff_of_false (by simp) ?_
    rintro ⟨b, hb, hnext, _⟩
    simpa using h.mem_after hb hnext.1
  | cons b after =>
    have hb : b ∈ before ++ c :: b :: after := by simp
    rw [List.head?_cons, Option.bind_some]
    constructor
    · intro hp
      by_cases hcov : covers c b = true
      · rw [if_pos hcov, Option.some.injEq] at hp
        exact ⟨b, hb, h.isNext, hcov, hp.symm⟩
      · rw [if_neg hcov] at hp
        cases hp
    · rintro ⟨b', hb', hnext, hcov, rfl⟩
      obtain rfl := h.isNext.unique hb hb' hnext
      rw [if_pos hcov]

/-! ## Entries -/

section Entries

variable {sketches : List GameSketch} {e f : LineageEntry} {c b : Candidate}

theorem subsumedBy_of_mem_entries (he : e ∈ entries sketches) :
    e.subsumedBy = (parentAt (·.id == e.id) (ordered sketches)).map Prod.fst := by
  obtain ⟨k, _, rfl⟩ := List.mem_map.1 he
  rfl

theorem mem_ordered_of_mem_entries (he : e ∈ entries sketches)
    (hc : candidate? e.toGameSketch = some c) : c ∈ ordered sketches := by
  obtain ⟨k, hk, rfl⟩ := List.mem_map.1 he
  exact mem_ordered.2 ⟨k, hk, hc⟩

theorem exists_entry_of_mem_ordered (hc : c ∈ ordered sketches) :
    ∃ e ∈ entries sketches, candidate? e.toGameSketch = some c := by
  obtain ⟨k, hk, hcandidate⟩ := mem_ordered.1 hc
  exact ⟨entryOf k (parentOf sketches k), List.mem_map_of_mem hk, hcandidate⟩

theorem key_of_candidate? {k : GameSketch} (hc : candidate? k = some c) {s : List Text}
    (hs : k.sans = some s) : c.key = (s, k.id) := by
  obtain ⟨_, hid, _, hsans⟩ := candidate?_eq_some.1 hc
  rw [Candidate.key, hid, Option.some.inj (hsans.symm.trans hs)]

theorem exists_candidate? {k : GameSketch} {s : List Text} (hs : k.sans = some s) :
    ∃ c, candidate? k = some c :=
  ⟨⟨0, k.id, k.movetext, s⟩, candidate?_eq_some.2 ⟨rfl, rfl, rfl, hs⟩⟩

/-- The order of the entries is that of their candidates. -/
theorem isSuccessor_iff_isNext (h : IsOrdering (ordered sketches))
    (hf : f ∈ entries sketches) (hc : candidate? e.toGameSketch = some c)
    (hb : candidate? f.toGameSketch = some b) :
    IsSuccessor (entries sketches) e f ↔ IsNext (ordered sketches) c b := by
  obtain ⟨_, hcid, _, hcs⟩ := candidate?_eq_some.1 hc
  obtain ⟨_, hbid, _, hbs⟩ := candidate?_eq_some.1 hb
  have hckey := key_of_candidate? hc hcs
  have hbkey := key_of_candidate? hb hbs
  constructor
  · rintro ⟨_, s, u, hs, hu, hlt, hnext⟩
    rw [hcs, Option.some.injEq] at hs
    rw [hbs, Option.some.injEq] at hu
    subst hs hu
    refine ⟨by rwa [hckey, hbkey], ?_⟩
    intro d hd hcd
    obtain ⟨g, hg, hgd⟩ := exists_entry_of_mem_ordered hd
    obtain ⟨_, hdid, _, hds⟩ := candidate?_eq_some.1 hgd
    rw [hckey, key_of_candidate? hgd hds] at hcd
    rcases hnext g hg d.sans hds hcd with heq | hlt'
    · left
      refine List.inj_on_of_nodup_map h.nodup hd (mem_ordered_of_mem_entries hf hb) ?_
      rw [hdid, hbid, heq]
    · right
      rwa [hbkey, key_of_candidate? hgd hds]
  · rintro ⟨hlt, hnext⟩
    rw [hckey, hbkey] at hlt
    refine ⟨hf, c.sans, b.sans, hcs, hbs, hlt, ?_⟩
    intro g hg v hv hcg
    obtain ⟨d, hd⟩ := exists_candidate? hv
    have hdkey := key_of_candidate? hd hv
    rcases hnext d (mem_ordered_of_mem_entries hg hd) (by rwa [hckey, hdkey]) with rfl | hbd
    · obtain ⟨_, hdid, _⟩ := candidate?_eq_some.1 hd
      exact Or.inl (hdid.symm.trans hbid)
    · exact Or.inr (by rwa [hbkey, hdkey] at hbd)

/-- **A game is linked exactly to its successor, and only if that contains it.** -/
theorem subsumedBy_eq_some_iff (h : IsOrdering (ordered sketches))
    (hids : (sketches.map GameSketch.id).Nodup) (he : e ∈ entries sketches) {g : Int} :
    e.subsumedBy = some g ↔ ∃ f, IsSuccessor (entries sketches) e f ∧
      isSubset e.movetext f.movetext = .ok true ∧ f.id = g := by
  rw [subsumedBy_of_mem_entries he]
  cases hs : e.sans with
  | none =>
    -- no other game has the number of a malformed one
    have hnone : parentAt (·.id == e.id) (ordered sketches) = none := by
      refine parentAt_of_forall ?_
      intro c hc
      obtain ⟨k, hk, hck⟩ := mem_ordered.1 hc
      obtain ⟨_, hid, _, hsans⟩ := candidate?_eq_some.1 hck
      rw [beq_eq_false_iff_ne, hid]
      intro heq
      obtain ⟨k', hk', rfl⟩ := List.mem_map.1 he
      obtain rfl : k = k' := List.inj_on_of_nodup_map hids hk hk' heq
      rw [show k.sans = none from hs] at hsans
      cases hsans
    rw [hnone]
    refine iff_of_false (by simp) ?_
    rintro ⟨f, ⟨_, s, _, hs', _⟩, _⟩
    rw [hs] at hs'
    cases hs'
  | some s =>
    obtain ⟨c, hc⟩ := exists_candidate? hs
    obtain ⟨_, hcid, hcm, _⟩ := candidate?_eq_some.1 hc
    rw [← hcid, Option.map_eq_some_iff]
    constructor
    · rintro ⟨p, hp, rfl⟩
      obtain ⟨b, hb, hnext, hcov, rfl⟩ :=
        (parentAt_eq_some_iff h (mem_ordered_of_mem_entries he hc)).1 hp
      obtain ⟨f, hf, hfb⟩ := exists_entry_of_mem_ordered hb
      obtain ⟨_, hbid, hbm, _⟩ := candidate?_eq_some.1 hfb
      refine ⟨f, (isSuccessor_iff_isNext h hf hc hfb).2 hnext, ?_, hbid.symm⟩
      rw [covers_iff, hcm, hbm] at hcov
      exact hcov
    · rintro ⟨f, hsucc, hsubset, rfl⟩
      obtain ⟨hf, _, u, _, hu, _⟩ := id hsucc
      obtain ⟨b, hb⟩ := exists_candidate? hu
      obtain ⟨_, hbid, hbm, _⟩ := candidate?_eq_some.1 hb
      refine ⟨(b.id, c.sans == b.sans), ?_, hbid⟩
      refine (parentAt_eq_some_iff h (mem_ordered_of_mem_entries he hc)).2
        ⟨b, mem_ordered_of_mem_entries hf hb, (isSuccessor_iff_isNext h hf hc hb).1 hsucc, ?_, rfl⟩
      rw [covers_iff, hcm, hbm]
      exact hsubset

end Entries

/-! ## Texts -/

/-- An entry says what its text says, and the text can be read. -/
structure IsFaithful (e : LineageEntry) : Prop where
  isReadable : (Transcript.first e.movetext).isOversized = false
  sans : e.sans = if (Transcript.first e.movetext).isMalformed then none
    else some (Transcript.first e.movetext).sans

/-- The main line of an entry's text. -/
def mainline (e : LineageEntry) : Mainline := Mainline.ofTranscript (Transcript.first e.movetext)

/-- An entry whose text has no main line. -/
def lacksMainline (e : LineageEntry) : Bool := hasNoMainline e.movetext (mainline e)

namespace IsFaithful

variable {e f : LineageEntry} {s u : List Text}

theorem ofMovetext_eq (h : IsFaithful e) : Mainline.ofMovetext e.movetext = .ok (mainline e) :=
  ofMovetext_of_not_isOversized h.isReadable

theorem sans_mainline (h : IsFaithful e) (hs : e.sans = some s) :
    (mainline e).failed = false ∧ (mainline e).sans = s := by
  rw [h.sans] at hs
  split at hs
  · cases hs
  · rename_i hm
    exact ⟨Bool.eq_false_iff.2 hm, Option.some.inj hs⟩

/-- A text contains another if both have a main line and the one continues the other. -/
theorem isSubset_eq_ok_true_iff (he : IsFaithful e) (hf : IsFaithful f) (hs : e.sans = some s)
    (hu : f.sans = some u) :
    isSubset e.movetext f.movetext = .ok true ↔
      lacksMainline e = false ∧ lacksMainline f = false ∧ s <+: u := by
  have hprefix : (Transcript.first e.movetext).sans.isPrefixOf (Transcript.first f.movetext).sans
      = s.isPrefixOf u := by
    rw [← (he.sans_mainline hs).2, ← (hf.sans_mainline hu).2]
    rfl
  rw [isSubset_of_not_isOversized he.isReadable hf.isReadable, hprefix,
    ← List.isPrefixOf_iff_prefix]
  simp [lacksMainline, mainline, and_assoc]

end IsFaithful

theorem isFaithful_of_mem_entries {rows : List StoredMovetext}
    (hread : ∀ row ∈ rows, IsReadable row) {e : LineageEntry}
    (he : e ∈ entries (rows.map sketchOf)) : IsFaithful e := by
  obtain ⟨k, hk, rfl⟩ := List.mem_map.1 he
  obtain ⟨row, hrow, rfl⟩ := List.mem_map.1 hk
  exact ⟨hread row hrow, rfl⟩

end Scoresheet.Lineage
