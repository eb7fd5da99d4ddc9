import Scoresheet.Proofs.Reading.ParallelReading

/-!
# The order in which records come

Sources that are read side by side give their records in any order that keeps those of each source
in theirs. So what a consumer has received can be completed to such an interleaving, and when it has
taken all marks it is one (`ParallelRead.Reachable.exists_isInterleaving`). A consumer takes a
failure only if a source holds a numeral that is too long to convert
(`ParallelRead.Reachable.not_failed`).
-/

namespace Scoresheet

/-! ## Interleavings -/

section Interleaving

variable {α : Type} {parts : List (List α)} {l : List α}

/-- The list takes the elements of several lists, those of each list in their order. -/
inductive IsInterleaving : List (List α) → List α → Prop
  | done {parts : List (List α)} (h : ∀ part ∈ parts, part = []) : IsInterleaving parts []
  | next {parts : List (List α)} {i : Nat} {a : α} {part l : List α}
      (hi : parts[i]? = some (a :: part)) (h : IsInterleaving (parts.set i part) l) :
      IsInterleaving parts (a :: l)

/-- One list after another. -/
theorem isInterleaving_flatten (parts : List (List α)) : IsInterleaving parts parts.flatten := by
  generalize hl : parts.flatten = l
  induction l generalizing parts with
  | nil => exact .done (List.flatten_eq_nil_iff.1 hl)
  | cons a l ih =>
    obtain ⟨before, part, after, rfl, hbefore, rfl⟩ := List.flatten_eq_cons_iff.1 hl
    have hi : (before ++ (a :: part) :: after)[before.length]? = some (a :: part) := by simp
    refine .next hi (ih _ ?_)
    rw [List.set_append_right _ _ (Nat.le_refl _), Nat.sub_self, List.set_cons_zero,
      List.flatten_append, List.flatten_cons, List.flatten_eq_nil_iff.2 hbefore, List.nil_append]

/-- **An interleaving holds the elements of all lists.** -/
theorem IsInterleaving.perm (h : IsInterleaving parts l) : l.Perm parts.flatten := by
  induction h with
  | done h => rw [List.flatten_eq_nil_iff.2 h]
  | next hi h ih =>
    obtain ⟨before, after, rfl, hset⟩ := ParallelRead.exists_split hi
    rw [hset] at ih
    simp only [List.flatten_append, List.flatten_cons, List.cons_append] at ih ⊢
    exact (ih.cons _).trans List.perm_middle.symm

/-- The elements with a tag. -/
def taggedWith (i : Nat) (tagged : List (Nat × α)) : List α :=
  tagged.filterMap fun (j, a) => if j = i then some a else none

/-- Elements whose tags say which list they are taken from can be completed to an interleaving of
the lists, by nothing if nothing is left in the lists. -/
theorem exists_isInterleaving_of_tagged {tagged : List (Nat × α)} {allTaken : Prop}
    (htags : ∀ x ∈ tagged, x.1 < parts.length)
    (hparts : ∀ i part, parts[i]? = some part → ∃ rest, taggedWith i tagged ++ rest = part ∧
      (allTaken → rest = [])) :
    ∃ more, IsInterleaving parts (tagged.map Prod.snd ++ more) ∧ (allTaken → more = []) := by
  induction tagged generalizing parts with
  | nil =>
    refine ⟨parts.flatten, isInterleaving_flatten parts, fun hall => ?_⟩
    rw [List.flatten_eq_nil_iff]
    intro part hpart
    obtain ⟨i, hi⟩ := List.getElem?_of_mem hpart
    obtain ⟨rest, rfl, hrest⟩ := hparts i part hi
    rw [hrest hall]
    rfl
  | cons x tagged ih =>
    obtain ⟨i, a⟩ := x
    obtain ⟨hi, htags⟩ := List.forall_mem_cons.1 htags
    obtain ⟨rest, hrest, hnone⟩ := hparts i _ (List.getElem?_eq_getElem hi)
    have hhead : taggedWith i ((i, a) :: tagged) = a :: taggedWith i tagged := by simp [taggedWith]
    rw [hhead, List.cons_append] at hrest
    have hset : ∀ j part, (parts.set i (taggedWith i tagged ++ rest))[j]? = some part →
        ∃ rest, taggedWith j tagged ++ rest = part ∧ (allTaken → rest = []) := by
      refine ParallelRead.forall_getElem?_set hparts ⟨rest, rfl, hnone⟩ ?_
      intro j part hj hpart
      have hother : taggedWith j ((i, a) :: tagged) = taggedWith j tagged := by
        simp [taggedWith, Ne.symm hj]
      rwa [hother] at hpart
    obtain ⟨more, hmore, hall⟩ := ih (by simpa using htags) hset
    exact ⟨more, .next (by rw [List.getElem?_eq_getElem hi, ← hrest]) hmore, hall⟩

end Interleaving

namespace ParallelRead

open Text

variable {maxWorkers bufferGames : Nat} {s t : ParallelRead}

/-! ## Where records and failures come from -/

/-- Records come from workers only. -/
def KeepsOrigins (s : ParallelRead) : Prop :=
  ∀ j, s.workers.length ≤ j → s.receivedFrom j ++ s.queuedFrom j = []

theorem keepsOrigins_afterMove {i : Nat} {d : Diagnostics} {w w' : Worker}
    {items : List QueueItem} (h : s.KeepsOrigins) (hw : s.workers[i]? = some w)
    (hm : w.Move i s.consumer.hasLeft s.diagnostics d w' items) :
    (s.afterMove i d w' items).KeepsOrigins := by
  intro j hj
  have hlength : (s.afterMove i d w' items).workers.length = s.workers.length := List.length_set
  rw [hlength] at hj
  have hi : i < s.workers.length := (List.getElem?_eq_some_iff.1 hw).1
  show s.receivedFrom j ++ recordsOf j (s.queue ++ items) = []
  rw [recordsOf_append, hm.others j (by omega), List.append_nil]
  exact h j hj

theorem keepsOrigins_consumer (s t : ParallelRead) (h : s.KeepsOrigins) (ht : ConsumerStep s t) :
    t.KeepsOrigins := by
  intro j hj
  cases ht with
  | take hc hr hq => exact (received_take hq j).trans (h j hj)
  | release hc hw =>
    rw [List.length_set] at hj
    exact h j hj
  | takeMark hc hr hq | takeFailure hc hr hq =>
    have hold := h j hj
    rw [queuedFrom, hq] at hold
    exact hold
  | close hc => exact h j hj

theorem keepsOrigins_step (s t : ParallelRead) :
    s.KeepsOrigins → Step maxWorkers s t → t.KeepsOrigins :=
  kept_of_moves keepsOrigins_afterMove keepsOrigins_consumer s t

/-- A worker that puts a failure into the queue has met it in its source. -/
theorem ending_of_failure {i : Nat} {cancelled : Bool} {d d' : Diagnostics} {w w' : Worker}
    {items : List QueueItem} (h : w.Act i cancelled d d' w' items) {numeral : OversizedNumeral}
    (hmem : QueueItem.failure numeral ∈ items) : w.source.ending = .oversized numeral := by
  cases h with
  | fail hp he =>
    cases List.mem_singleton.1 hmem
    exact he
  | put hp | leave hp => simp at hmem
  | read | acquire | complete | skip | quit | count => cases hmem

/-- No source leads to a failure, none waits in the queue, and none has been taken. -/
structure KnowsNoFailure (s : ParallelRead) : Prop where
  sources : ∀ source ∈ s.sources, source.2.IsConvertible
  queue : ∀ numeral, QueueItem.failure numeral ∉ s.queue
  consumer : ∀ numeral, s.consumer ≠ .failed numeral

/-- Only a source with a numeral that is too long to convert leads to a failure. -/
theorem knowsNoFailure_step (h : s.KnowsNoFailure) (ht : Step maxWorkers s t) :
    t.KnowsNoFailure := by
  have hsources := sources_step ht ▸ h.sources
  cases ht with
  | worker ht =>
    cases ht with
    | takeUp => exact ⟨hsources, h.queue, h.consumer⟩
    | @act i w w' d items hw ha =>
      refine ⟨hsources, fun numeral hmem => ?_, h.consumer⟩
      rcases List.mem_append.1 hmem with hold | hnew
      · exact h.queue numeral hold
      · have hsource : (w.path, w.source) ∈ s.sources :=
          List.mem_map_of_mem (List.mem_of_getElem? hw)
        exact h.sources _ hsource numeral (ending_of_failure ha hnew)
  | consumer ht =>
    have hqueue := h.queue
    cases ht with
    | take hc hr hq | takeMark hc hr hq =>
      rw [hq] at hqueue
      exact ⟨hsources, fun numeral hmem => hqueue numeral (List.mem_cons_of_mem _ hmem),
        by simp [*]⟩
    | takeFailure hc hr hq =>
      rw [hq] at hqueue
      exact absurd List.mem_cons_self (hqueue _)
    | release | close => exact ⟨hsources, hqueue, by simp⟩

/-! ## What has been received -/

namespace Reachable

variable {read : Text → SourceReading} {found : List Source}

/-- Each record that was received is tagged with the place of a source. -/
theorem lt_length (hs : Reachable maxWorkers (ofSources read bufferGames found) s) :
    ∀ x ∈ s.received, x.1 < found.length := by
  have hstart : (ofSources read bufferGames found).KeepsOrigins := fun _ _ => rfl
  have horigins := hs.invariant hstart keepsOrigins_step
  have hlength := hs.isSound.length_workers
  rw [List.length_map] at hlength
  intro x hx
  by_contra hnot
  have hnil := (List.append_eq_nil_iff.1 (horigins x.1 (by omega))).1
  have hmem : x.2 ∈ s.receivedFrom x.1 := List.mem_filterMap.2 ⟨x, hx, if_pos rfl⟩
  rw [hnil] at hmem
  cases hmem

/-- **What was received** can be completed to an interleaving of the records of all sources, by
nothing when the consumer has taken all marks. -/
theorem exists_isInterleaving (hs : Reachable maxWorkers (ofSources read bufferGames found) s) :
    ∃ more, IsInterleaving (found.map fun source => (read source.path).records)
        (s.received.map Prod.snd ++ more) ∧ (s.IsFinished → more = []) := by
  refine exists_isInterleaving_of_tagged (by simpa using hs.lt_length) fun i part hi => ?_
  rw [List.getElem?_map] at hi
  obtain ⟨source, hsource, rfl⟩ := Option.map_eq_some_iff.1 hi
  have hplace := getElem?_readings read hsource
  obtain ⟨rest, hrest⟩ := hs.isSound.receivedFrom_prefix hplace
  refine ⟨rest, hrest, fun hend => ?_⟩
  rw [hs.isSound.receivedFrom_eq hend hplace] at hrest
  exact List.append_right_eq_self.1 hrest

/-- **No failure ends the read** of sources without numerals that are too long. -/
theorem not_failed (hs : Reachable maxWorkers (ofSources read bufferGames found) s)
    (hread : ∀ source ∈ found, (read source.path).IsConvertible) (numeral : OversizedNumeral) :
    s.consumer ≠ .failed numeral := by
  have hsources : ∀ source ∈ found.map fun source => (source.path, read source.path),
      source.2.IsConvertible := List.forall_mem_map.2 hread
  have hstart : (ofSources read bufferGames found).KnowsNoFailure :=
    ⟨(sources_start _).symm ▸ hsources, by simp [ofSources, start], by simp [ofSources, start]⟩
  exact (hs.invariant hstart fun t u => knowsNoFailure_step).consumer numeral

end Reachable

end ParallelRead

end Scoresheet
