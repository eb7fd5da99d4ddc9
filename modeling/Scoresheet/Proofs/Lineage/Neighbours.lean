import Scoresheet.Proofs.Lineage.Order
import Scoresheet.Proofs.Mainline.Analyses

/-!
# The lineage of a game is found at its neighbour

The lineage of rows is computed with links between places. Here it is brought into a form without
places: each game is looked up by its number among the ordered games, and what is said about it
depends only on the game after it there (`compute_eq`). So it does not depend on the order of the
rows.
-/

namespace Scoresheet.Lineage

open Text Pgn

/-! ## Sketches -/

/-- The movetext of a row can be read. -/
def IsReadable (row : StoredMovetext) : Prop :=
  (Transcript.first (row.movetext.getD [])).isOversized = false

/-- What is known about a game whose movetext can be read. -/
def sketchOf (row : StoredMovetext) : GameSketch :=
  let movetext := row.movetext.getD []
  let t := Transcript.first movetext
  { id := row.id
    movetext
    sans := if t.isMalformed then none else some t.sans
    hash :=
      if isBlankText movetext || meetsFault t then none
      else some (lastPosition (replay .initial t.sans)).hash
    plyCount := (Mainline.ofTranscript t).plyCount }

theorem sketch_eq {row : StoredMovetext} (h : IsReadable row) :
    sketch row = .ok (sketchOf row) := by
  unfold sketch
  dsimp only
  rw [ofMovetext_of_not_isOversized h, movesHash_of_not_isOversized h]
  rfl

theorem mapM_sketch {rows : List StoredMovetext} (h : ∀ row ∈ rows, IsReadable row) :
    rows.mapM sketch = .ok (rows.map sketchOf) := by
  induction rows with
  | nil => rfl
  | cons row rows ih =>
    rw [List.mapM_cons, sketch_eq (h row List.mem_cons_self),
      ih fun r hr => h r (List.mem_cons_of_mem _ hr)]
    rfl

/-! ## Candidates -/

/-- A game that takes part in the ordering, without its place. -/
def candidate? (s : GameSketch) : Option Candidate :=
  s.sans.map fun sans => ⟨0, s.id, s.movetext, sans⟩

/-- The games that take part, in their order and without their places. -/
def ordered (sketches : List GameSketch) : List Candidate :=
  (sketches.filterMap candidate?).mergeSort le

/-- A candidate without its place. -/
def Candidate.withoutPlace (c : Candidate) : Candidate := { c with place := 0 }

theorem map_withoutPlace_candidates (sketches : List GameSketch) : ∀ place : Nat,
    (candidates place sketches).map Candidate.withoutPlace = sketches.filterMap candidate? := by
  induction sketches with
  | nil => exact fun _ => rfl
  | cons s sketches ih =>
    intro place
    rw [candidates]
    cases hs : s.sans with
    | none => rw [List.filterMap_cons_none (by simp [candidate?, hs]), ih]
    | some sans =>
      rw [List.filterMap_cons_some (by simp only [candidate?, hs, Option.map_some]; rfl),
        List.map_cons, ih]
      rfl

/-- Sorting does not look at the places. -/
theorem map_withoutPlace_mergeSort (l : List Candidate) :
    (l.mergeSort le).map Candidate.withoutPlace = (l.map Candidate.withoutPlace).mergeSort le :=
  List.map_mergeSort fun _ _ _ _ => rfl

/-- A candidate comes from the game at its place. -/
theorem mem_candidates {sketches : List GameSketch} {c : Candidate} : ∀ {place : Nat},
    c ∈ candidates place sketches → ∃ k s,
      sketches[k]? = some s ∧ c.place = place + k ∧ candidate? s = some c.withoutPlace := by
  induction sketches with
  | nil =>
    intro place h
    simp [candidates] at h
  | cons s sketches ih =>
    intro place h
    have hlater : c ∈ candidates (place + 1) sketches →
        ∃ k t, (s :: sketches)[k]? = some t ∧ c.place = place + k ∧
          candidate? t = some c.withoutPlace := by
      intro h
      obtain ⟨k, t, ht, hplace, hc⟩ := ih h
      exact ⟨k + 1, t, by simpa using ht, by omega, hc⟩
    rw [candidates] at h
    cases hs : s.sans with
    | none =>
      rw [hs] at h
      exact hlater h
    | some sans =>
      rw [hs] at h
      rcases List.mem_cons.1 h with rfl | h
      · exact ⟨0, s, rfl, rfl, by rw [candidate?, hs]; rfl⟩
      · exact hlater h

/-- No two candidates have the same place. -/
theorem nodup_place_candidates (sketches : List GameSketch) : ∀ place : Nat,
    ((candidates place sketches).map Candidate.place).Nodup := by
  induction sketches with
  | nil => exact fun _ => List.nodup_nil
  | cons s sketches ih =>
    intro place
    rw [candidates]
    cases s.sans with
    | none => exact ih (place + 1)
    | some sans =>
      refine List.nodup_cons.2 ⟨fun h => ?_, ih (place + 1)⟩
      obtain ⟨c, hc, hplace⟩ := List.mem_map.1 h
      obtain ⟨k, _, _, hk, _⟩ := mem_candidates hc
      have hc : c.place = place := hplace
      omega

/-! ## Links -/

/-- What a game's lineage says: the number of the game it is a beginning of, and whether that has
the same moves. -/
abbrev Parent := Int × Bool

/-- Whether the text of a game is contained in that of another; one that cannot be read is not. -/
def covers (a b : Candidate) : Bool :=
  match isSubset a.movetext b.movetext with
  | .ok answer => answer
  | .error _ => false

/-- What the neighbour of a game says about it. -/
def parentAt (p : Candidate → Bool) : List Candidate → Option Parent
  | a :: b :: rest =>
    if p a then if covers a b then some (b.id, a.sans == b.sans) else none
    else parentAt p (b :: rest)
  | _ => none

theorem parentAt_of_forall {p : Candidate → Bool} : ∀ {l : List Candidate},
    (∀ c ∈ l, p c = false) → parentAt p l = none
  | [], _ => rfl
  | [_], _ => rfl
  | a :: b :: rest, h => by
    have ha : ¬p a = true := by simp [h a List.mem_cons_self]
    rw [parentAt, if_neg ha]
    exact parentAt_of_forall fun c hc => h c (List.mem_cons_of_mem _ hc)

theorem parentAt_congr {p q : Candidate → Bool} : ∀ {l : List Candidate},
    (∀ c ∈ l, p c = q c.withoutPlace) → parentAt p l = parentAt q (l.map Candidate.withoutPlace)
  | [], _ => rfl
  | [_], _ => rfl
  | a :: b :: rest, h => by
    have ih := parentAt_congr fun c hc => h c (List.mem_cons_of_mem a hc)
    rw [List.map_cons, List.map_cons, parentAt, parentAt, h a List.mem_cons_self, ih]
    rfl

/-- The text of a candidate can be read. -/
def Candidate.IsReadable (c : Candidate) : Prop := (Transcript.first c.movetext).isOversized = false

theorem isSubset_eq_covers {a b : Candidate} (ha : a.IsReadable) (hb : b.IsReadable) :
    isSubset a.movetext b.movetext = .ok (covers a b) := by
  rw [covers, isSubset_of_not_isOversized ha hb]

/-- The link from a game to its neighbour. -/
def linkTo (a b : Candidate) : Option Link :=
  if covers a b then some ⟨a.place, b.id, a.sans == b.sans⟩ else none

theorem link?_eq {a b : Candidate} (ha : a.IsReadable) (hb : b.IsReadable) :
    link? a b = .ok (linkTo a b) := by
  rw [link?, isSubset_eq_covers ha hb, linkTo]
  cases covers a b <;> rfl

theorem place_of_mem_linkTo {a b : Candidate} {link : Link} (h : link ∈ (linkTo a b).toList) :
    link.place = a.place := by
  unfold linkTo at h
  by_cases hcov : covers a b = true
  · rw [if_pos hcov, Option.toList_some, List.mem_singleton] at h
    rw [h]
  · rw [if_neg hcov] at h
    simp at h

theorem find?_linkTo (a b : Candidate) :
    (linkTo a b).toList.find? (·.place == a.place) = linkTo a b := by
  unfold linkTo
  by_cases hcov : covers a b = true
  · simp [hcov]
  · simp [hcov]

theorem find?_linkTo_of_ne {a b : Candidate} {place : Nat} (h : a.place ≠ place) :
    (linkTo a b).toList.find? (·.place == place) = none := by
  rw [List.find?_eq_none]
  intro link hl heq
  exact h ((place_of_mem_linkTo hl).symm.trans (beq_iff_eq.1 heq))

/-- What a link says without its place. -/
def Link.parent (link : Link) : Parent := (link.subsumedBy, link.isExactDuplicate)

/-- The links say of each place what the neighbour there says. -/
theorem find?_links : ∀ {l : List Candidate}, (∀ c ∈ l, c.IsReadable) →
    (l.map Candidate.place).Nodup → ∃ ls, links l = .ok ls ∧
      (∀ link ∈ ls, ∃ c ∈ l, c.place = link.place) ∧
      ∀ place, (ls.find? (·.place == place)).map Link.parent = parentAt (·.place == place) l
  | [], _, _ => ⟨[], rfl, by simp, fun _ => rfl⟩
  | [_], _, _ => ⟨[], rfl, by simp, fun _ => rfl⟩
  | a :: b :: rest, hread, hnodup => by
    have hread' : ∀ c ∈ b :: rest, c.IsReadable := fun c hc => hread c (List.mem_cons_of_mem _ hc)
    obtain ⟨hnew, hnodup'⟩ := List.nodup_cons.1 hnodup
    obtain ⟨more, hmore, hplaces, hfind⟩ := find?_links hread' hnodup'
    have hlinks : links (a :: b :: rest) = .ok ((linkTo a b).toList ++ more) := by
      rw [links, link?_eq (hread a List.mem_cons_self) (hread' b List.mem_cons_self), hmore]
      rfl
    -- a place has no second link
    have hnone : more.find? (·.place == a.place) = none := by
      rw [List.find?_eq_none]
      intro link hl heq
      obtain ⟨c, hc, hplace⟩ := hplaces link hl
      have hac : c.place = a.place := hplace.trans (beq_iff_eq.1 heq)
      exact hnew (hac ▸ List.mem_map_of_mem hc)
    refine ⟨_, hlinks, fun link hl => ?_, fun place => ?_⟩
    · rcases List.mem_append.1 hl with hl | hl
      · exact ⟨a, List.mem_cons_self, (place_of_mem_linkTo hl).symm⟩
      · obtain ⟨c, hc, hplace⟩ := hplaces link hl
        exact ⟨c, List.mem_cons_of_mem _ hc, hplace⟩
    · rw [parentAt, List.find?_append]
      by_cases hplace : a.place = place
      · subst hplace
        rw [hnone, find?_linkTo, Option.or_none, if_pos (beq_self_eq_true a.place), linkTo]
        by_cases hcov : covers a b = true
        · rw [if_pos hcov, if_pos hcov]
          rfl
        · rw [if_neg hcov, if_neg hcov]
          rfl
      · rw [find?_linkTo_of_ne hplace, if_neg (by simpa using hplace), Option.none_or]
        exact hfind place

/-! ## Entries -/

/-- The entry of a game, given what its neighbour says. -/
def entryOf (s : GameSketch) (parent : Option Parent) : LineageEntry :=
  { toGameSketch := s
    subsumedBy := parent.map Prod.fst
    isExactDuplicate := parent.any Prod.snd }

theorem attach_eq {ls : List Link} {parent : GameSketch → Option Parent} :
    ∀ {sketches : List GameSketch} {place : Nat},
      (∀ k s, sketches[k]? = some s →
        (ls.find? (·.place == place + k)).map Link.parent = parent s) →
      attach ls place sketches = sketches.map fun s => entryOf s (parent s)
  | [], _, _ => rfl
  | s :: sketches, place, h => by
    have hs := h 0 s rfl
    have ih : attach ls (place + 1) sketches = sketches.map fun s => entryOf s (parent s) := by
      refine attach_eq fun k t ht => ?_
      rw [Nat.add_assoc, Nat.add_comm 1 k]
      exact h (k + 1) t (by simpa using ht)
    rw [attach, List.map_cons, ih, ← hs, Nat.add_zero]
    cases ls.find? (·.place == place) <;> rfl

/-- What the lineage says about a game that is looked up by its number. -/
def parentOf (sketches : List GameSketch) (s : GameSketch) : Option Parent :=
  parentAt (·.id == s.id) (ordered sketches)

/-- The entries of games, each from its neighbour among the ordered games. -/
def entries (sketches : List GameSketch) : List LineageEntry :=
  sketches.map fun s => entryOf s (parentOf sketches s)

theorem candidate?_eq_some {s : GameSketch} {c : Candidate} :
    candidate? s = some c ↔
      c.place = 0 ∧ c.id = s.id ∧ c.movetext = s.movetext ∧ s.sans = some c.sans := by
  obtain ⟨place, id, movetext, sans⟩ := c
  simp only [candidate?, Option.map_eq_some_iff, Candidate.mk.injEq]
  constructor
  · rintro ⟨t, ht, rfl, rfl, rfl, rfl⟩
    exact ⟨rfl, rfl, rfl, ht⟩
  · rintro ⟨rfl, rfl, rfl, hs⟩
    exact ⟨sans, hs, rfl, rfl, rfl, rfl⟩

theorem isReadable_of_mem_candidates {rows : List StoredMovetext}
    (h : ∀ row ∈ rows, IsReadable row) {c : Candidate} {place : Nat}
    (hc : c ∈ candidates place (rows.map sketchOf)) : c.IsReadable := by
  obtain ⟨k, s, hs, _, hcandidate⟩ := mem_candidates hc
  obtain ⟨row, hrow, rfl⟩ := List.mem_map.1 (List.mem_of_getElem? hs)
  obtain ⟨_, _, hmovetext, _⟩ := candidate?_eq_some.1 hcandidate
  have hread := h row hrow
  unfold Candidate.IsReadable
  rwa [show c.movetext = row.movetext.getD [] from hmovetext]

/-- Where a function takes no value twice, its values tell the places apart. -/
theorem eq_iff_of_nodup_map {α β : Type} {f : α → β} {l : List α} (h : (l.map f).Nodup) {j k : Nat}
    {a b : α} (hj : l[j]? = some a) (hk : l[k]? = some b) : j = k ↔ f a = f b := by
  constructor
  · rintro rfl
    rw [hj, Option.some.injEq] at hk
    rw [hk]
  · intro heq
    have hlt : j < (l.map f).length := by
      rw [List.length_map]
      exact (List.getElem?_eq_some_iff.1 hj).1
    refine (List.getElem?_inj hlt h).1 ?_
    rw [List.getElem?_map, List.getElem?_map, hj, hk, Option.map_some, Option.map_some, heq]

/-- **The lineage of games of distinct numbers is found at their neighbours**, without places. -/
theorem compute_eq {rows : List StoredMovetext} (hread : ∀ row ∈ rows, IsReadable row)
    (hids : (rows.map StoredMovetext.id).Nodup) :
    compute rows = .ok (entries (rows.map sketchOf)) := by
  have hcandidates : ∀ c ∈ (candidates 0 (rows.map sketchOf)).mergeSort le, c.IsReadable :=
    fun c hc => isReadable_of_mem_candidates hread (List.mem_mergeSort.1 hc)
  have hplaces : (((candidates 0 (rows.map sketchOf)).mergeSort le).map Candidate.place).Nodup :=
    ((List.mergeSort_perm _ le).map _).nodup_iff.2 (nodup_place_candidates _ 0)
  have hids : ((rows.map sketchOf).map GameSketch.id).Nodup := by
    rwa [List.map_map, show GameSketch.id ∘ sketchOf = StoredMovetext.id from rfl]
  obtain ⟨ls, hls, _, hfind⟩ := find?_links hcandidates hplaces
  have hattach : attach ls 0 (rows.map sketchOf) = entries (rows.map sketchOf) := by
    refine attach_eq fun k s hs => ?_
    rw [hfind, parentOf, ordered, ← map_withoutPlace_candidates _ 0, ← map_withoutPlace_mergeSort]
    refine parentAt_congr fun c hc => ?_
    -- among games of distinct numbers the place and the number say the same
    obtain ⟨j, t, ht, hplace, hcandidate⟩ := mem_candidates (List.mem_mergeSort.1 hc)
    obtain ⟨_, hid, _⟩ := candidate?_eq_some.1 hcandidate
    rw [Bool.eq_iff_iff, beq_iff_eq, beq_iff_eq, hplace, hid, Nat.zero_add, Nat.zero_add]
    exact eq_iff_of_nodup_map hids ht hs
  rw [compute, mapM_sketch hread]
  show (links _ >>= fun links => pure (attach links 0 (rows.map sketchOf))) = _
  rw [hls, ← hattach]
  rfl

end Scoresheet.Lineage
