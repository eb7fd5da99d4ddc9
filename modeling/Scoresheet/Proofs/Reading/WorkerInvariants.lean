import Scoresheet.Proofs.Reading.WorkerMoves

/-!
# What a read with workers keeps

Each invariant of a read with workers is kept by every step, whoever makes it, so it holds in every
state that can be reached (`Reachable.invariant`):

* `KeepsRecords` — what was received of a source, waits in the queue and is still to come of it are
  its records in order;
* `KeepsCredits` — credits and records that are not done with make up the buffer of a source;
* `KeepsMarks`, `MarkComesLast` — a mark is missing for each worker that has not ended, and nothing
  stays in the queue behind the last mark;
* `KeepsTallies`, `KeepsTotals` — what was counted, what is still to be counted and what the totals
  hold agree;
* `running_le` — no more workers run than may.
-/

namespace Scoresheet

open Text

/-- The number of records of one worker that the consumer has not given the credit back for. -/
def Consumer.holds (i : Nat) : Consumer → Nat
  | taking | failed _ => 0
  | passing j | closed j => if j = i then 1 else 0

namespace ParallelRead

/-! ## Changing one element of a list -/

section Lists

variable {α β : Type} {l : List α} {i : Nat} {a b : α}

/-- The place of an element cuts a list, and only the element changes with it. -/
theorem exists_split (h : l[i]? = some a) :
    ∃ pre post, l = pre ++ a :: post ∧ ∀ b, l.set i b = pre ++ b :: post := by
  induction l generalizing i with
  | nil => simp at h
  | cons c l ih =>
    cases i with
    | zero =>
      obtain rfl : c = a := by simpa using h
      exact ⟨[], l, rfl, fun _ => rfl⟩
    | succ i =>
      obtain ⟨pre, post, rfl, hset⟩ := ih (by simpa using h)
      exact ⟨c :: pre, post, rfl, fun b => by rw [List.set_cons_succ, hset]; rfl⟩

/-- A change of one element changes a count by that element alone. -/
theorem countP_set (h : l[i]? = some a) (p : α → Bool) (b : α) :
    (l.set i b).countP p + (if p a then 1 else 0) = l.countP p + if p b then 1 else 0 := by
  obtain ⟨pre, post, rfl, hset⟩ := exists_split h
  rw [hset, List.countP_append, List.countP_append, List.countP_cons, List.countP_cons]
  omega

/-- What does not tell the old element from the new one does not see the change. -/
theorem map_set_of_eq (h : l[i]? = some a) {f : α → β} (hf : f b = f a) :
    (l.set i b).map f = l.map f := by
  obtain ⟨pre, post, rfl, hset⟩ := exists_split h
  rw [hset, List.map_append, List.map_append, List.map_cons, List.map_cons, hf]

/-- What holds of each element at its place holds after a change if it is kept for the others. -/
theorem forall_getElem?_set {P Q : Nat → α → Prop} (h : ∀ j c, l[j]? = some c → P j c)
    (hi : Q i b) (hne : ∀ j c, j ≠ i → P j c → Q j c) :
    ∀ j c, (l.set i b)[j]? = some c → Q j c := by
  intro j c hc
  rw [List.getElem?_set] at hc
  split at hc
  · rename_i hij
    split at hc
    · obtain rfl := Option.some.inj hc
      rw [← hij]
      exact hi
    · simp at hc
  · rename_i hij
    exact hne j c (Ne.symm hij) (h j c hc)

/-- Among the elements with a property there is a first one. -/
theorem exists_first {p : α → Prop} (h : ∃ c ∈ l, p c) :
    ∃ i c, l[i]? = some c ∧ p c ∧ ∀ d ∈ l.take i, ¬p d := by
  induction l with
  | nil => simp at h
  | cons c l ih =>
    by_cases hc : p c
    · exact ⟨0, c, rfl, hc, by simp⟩
    · have hl : ∃ d ∈ l, p d := by simpa [hc] using h
      obtain ⟨i, d, hd, hpd, hfirst⟩ := ih hl
      refine ⟨i + 1, d, hd, hpd, ?_⟩
      rw [List.take_succ_cons]
      exact List.forall_mem_cons.2 ⟨hc, hfirst⟩

end Lists

/-! ## Invariants -/

variable {maxWorkers : Nat} {s t : ParallelRead}

/-- **What every step keeps holds in every state that can be reached.** -/
theorem Reachable.invariant {P : ParallelRead → Prop} (hstart : P s)
    (hstep : ∀ t u, P t → Step maxWorkers t u → P u) (h : Reachable maxWorkers s t) : P t := by
  induction h with
  | refl => exact hstart
  | step _ hu ih => exact hstep _ _ ih hu

/-- What the moves of workers and the steps of the consumer keep is kept by every step. -/
theorem kept_of_moves {P : ParallelRead → Prop}
    (hmove : ∀ {s : ParallelRead} {i : Nat} {d : Diagnostics} {w w' : Worker}
      {items : List QueueItem}, P s → s.workers[i]? = some w →
      w.Move i s.consumer.hasLeft s.diagnostics d w' items → P (s.afterMove i d w' items))
    (hconsumer : ∀ s t, P s → ConsumerStep s t → P t) :
    ∀ s t, P s → Step maxWorkers s t → P t := by
  intro s t hs hstep
  cases hstep with
  | worker h =>
    obtain ⟨i, w, d, w', items, hw, hm, rfl⟩ := h.exists_move
    exact hmove hs hw hm
  | consumer h => exact hconsumer s t hs h

/-! ### Sources -/

/-- The sources of the workers with what reading them gives. -/
def sources (s : ParallelRead) : List (Text × SourceReading) :=
  s.workers.map fun w => (w.path, w.source)

theorem sources_step (h : Step maxWorkers s t) : t.sources = s.sources := by
  unfold sources
  cases h with
  | worker h =>
    obtain ⟨i, w, d, w', items, hw, hm, rfl⟩ := h.exists_move
    exact map_set_of_eq hw (by rw [hm.path, hm.source])
  | consumer h =>
    cases h with
    | release hc hw => exact map_set_of_eq hw rfl
    | take | takeMark | takeFailure | close => rfl

/-! ### Records -/

theorem recordsOf_append (i : Nat) (items more : List QueueItem) :
    recordsOf i (items ++ more) = recordsOf i items ++ recordsOf i more :=
  List.filterMap_append

/-- Received records, waiting records and those to come are the records of the source. Records are
dropped only if the consumer has left. -/
def KeepsRecords (s : ParallelRead) : Prop :=
  ∀ i w, s.workers[i]? = some w → ∃ dropped,
    s.receivedFrom i ++ s.queuedFrom i ++ w.left ++ dropped = w.source.records ∧
      (s.consumer.hasLeft = false → dropped = [])

theorem keepsRecords_afterMove {i : Nat} {d : Diagnostics} {w w' : Worker}
    {items : List QueueItem} (h : s.KeepsRecords) (hw : s.workers[i]? = some w)
    (hm : w.Move i s.consumer.hasLeft s.diagnostics d w' items) :
    (s.afterMove i d w' items).KeepsRecords := by
  refine forall_getElem?_set h ?_ ?_
  · obtain ⟨dropped, hall, hleft⟩ := h i w hw
    obtain ⟨more, hmore, hleft'⟩ := hm.records
    refine ⟨more ++ dropped, ?_, fun hc => ?_⟩
    · show s.receivedFrom i ++ recordsOf i (s.queue ++ items) ++ w'.left ++ _ = w'.source.records
      rw [hm.source, ← hall, ← hmore, recordsOf_append]
      simp only [queuedFrom, List.append_assoc]
    · rw [hleft' hc, hleft hc]
      rfl
  · intro j v hj hv
    obtain ⟨dropped, hall, hleft⟩ := hv
    refine ⟨dropped, ?_, hleft⟩
    show s.receivedFrom j ++ recordsOf j (s.queue ++ items) ++ v.left ++ _ = _
    rw [recordsOf_append, hm.others j hj, List.append_nil]
    exact hall

/-- A record that is taken goes from the front of the queue to the end of those received. -/
theorem received_take {i : Nat} {record : Record} {queue : List QueueItem}
    (hq : s.queue = .record i record :: queue) (j : Nat) :
    ({ s with queue, consumer := .passing i, received := s.received ++ [(i, record)] } :
        ParallelRead).receivedFrom j ++ recordsOf j queue
      = s.receivedFrom j ++ s.queuedFrom j := by
  unfold receivedFrom queuedFrom
  rw [hq]
  by_cases hij : i = j
  · simp [recordsOf, hij]
  · simp [recordsOf, hij]

theorem keepsRecords_consumer (s t : ParallelRead) (h : s.KeepsRecords) (ht : ConsumerStep s t) :
    t.KeepsRecords := by
  have hgone : s.consumer.hasLeft = false := by
    cases ht with
    | take hc | release hc | takeMark hc | takeFailure hc | close hc => rw [hc]; rfl
  have hall : ∀ i w, s.workers[i]? = some w →
      s.receivedFrom i ++ s.queuedFrom i ++ w.left = w.source.records := by
    intro i w hw
    obtain ⟨dropped, hall, hleft⟩ := h i w hw
    rw [hleft hgone, List.append_nil] at hall
    exact hall
  -- nothing is dropped, so it is enough that received and waiting records stay the same
  suffices hsame : ∀ i w, t.workers[i]? = some w →
      t.receivedFrom i ++ t.queuedFrom i ++ w.left = w.source.records from
    fun i w hw => ⟨[], by rw [List.append_nil, hsame i w hw], fun _ => rfl⟩
  cases ht with
  | take hc hr hq =>
    intro j w hw
    show _ ++ recordsOf j _ ++ w.left = _
    rw [received_take hq]
    exact hall j w hw
  | @release i w hc hw => exact forall_getElem?_set hall (hall i w hw) fun _ _ _ hv => hv
  | takeMark hc hr hq | takeFailure hc hr hq =>
    intro j w hw
    rw [← hall j w hw, queuedFrom, queuedFrom, hq]
    rfl
  | close hc => exact hall

theorem keepsRecords_step (s t : ParallelRead) :
    s.KeepsRecords → Step maxWorkers s t → t.KeepsRecords :=
  kept_of_moves keepsRecords_afterMove keepsRecords_consumer s t

/-! ### Credits -/

/-- The records of one worker that have been put into the queue and for which no credit has been
given back. -/
def unreleased (s : ParallelRead) (i : Nat) : Nat :=
  (s.queuedFrom i).length + s.consumer.holds i

/-- A credit is either at hand, spent on a record on its way into the queue, or on a record that the
consumer is not done with. -/
def KeepsCredits (buffer : Nat) (s : ParallelRead) : Prop :=
  ∀ i w, s.workers[i]? = some w → w.credits + w.phase.spent + s.unreleased i = buffer

theorem keepsCredits_afterMove {buffer i : Nat} {d : Diagnostics} {w w' : Worker}
    {items : List QueueItem} (h : s.KeepsCredits buffer) (hw : s.workers[i]? = some w)
    (hm : w.Move i s.consumer.hasLeft s.diagnostics d w' items) :
    (s.afterMove i d w' items).KeepsCredits buffer := by
  have hqueued : ∀ j, (s.afterMove i d w' items).unreleased j
      = s.unreleased j + (recordsOf j items).length := by
    intro j
    show (recordsOf j (s.queue ++ items)).length + s.consumer.holds j = _
    rw [recordsOf_append, List.length_append, unreleased, queuedFrom]
    omega
  refine forall_getElem?_set h ?_ ?_
  · have hold := h i w hw
    have hcredits := hm.credits
    rw [hqueued]
    omega
  · intro j v hj hv
    rw [hqueued, hm.others j hj]
    exact hv

theorem keepsCredits_consumer (buffer : Nat) (s t : ParallelRead) (h : s.KeepsCredits buffer)
    (ht : ConsumerStep s t) : t.KeepsCredits buffer := by
  cases ht with
  | @take i record queue hc hr hq =>
    intro j w hw
    have hold := h j w hw
    have hqueue : s.queuedFrom j = (if i = j then [record] else []) ++ recordsOf j queue := by
      rw [queuedFrom, hq]
      by_cases hij : i = j <;> simp [recordsOf, hij]
    rw [unreleased, hqueue, hc] at hold
    show w.credits + w.phase.spent + ((recordsOf j queue).length + if i = j then 1 else 0) = buffer
    by_cases hij : i = j
    · simp only [hij, if_true, Consumer.holds, List.length_append, List.length_singleton] at *
      omega
    · simp only [hij, if_false, Consumer.holds, List.nil_append] at *
      omega
  | @release i w hc hw =>
    refine forall_getElem?_set h ?_ ?_
    · have hold := h i w hw
      rw [unreleased, hc] at hold
      show w.credits + 1 + w.phase.spent + ((s.queuedFrom i).length + 0) = buffer
      simp only [Consumer.holds, if_true] at hold
      omega
    · intro j v hj hv
      rw [unreleased, hc] at hv
      show v.credits + v.phase.spent + ((s.queuedFrom j).length + 0) = buffer
      simp only [Consumer.holds, if_neg (Ne.symm hj)] at hv
      exact hv
  | takeMark hc hr hq =>
    intro j w hw
    have hold := h j w hw
    rw [unreleased, queuedFrom, hq] at hold
    exact hold
  | takeFailure hc hr hq =>
    intro j w hw
    have hold := h j w hw
    rw [unreleased, queuedFrom, hq, hc] at hold
    exact hold
  | close hc =>
    intro j w hw
    have hold := h j w hw
    rw [unreleased, hc] at hold
    exact hold

theorem keepsCredits_step (buffer : Nat) (s t : ParallelRead) :
    s.KeepsCredits buffer → Step maxWorkers s t → t.KeepsCredits buffer :=
  kept_of_moves keepsCredits_afterMove (keepsCredits_consumer buffer) s t

/-! ### Marks -/

/-- The number of workers that have not ended. -/
def unended (workers : List Worker) : Nat := workers.countP fun w => w.phase != .ended

/-- A mark is missing for each worker that has not ended and for each mark in the queue. -/
def KeepsMarks (s : ParallelRead) : Prop :=
  s.remaining = unended s.workers + s.queue.count .endMark

theorem unended_set {workers : List Worker} {i : Nat} {w : Worker} (hw : workers[i]? = some w)
    (w' : Worker) :
    unended (workers.set i w') + (if w.phase = .ended then 0 else 1)
      = unended workers + if w'.phase = .ended then 0 else 1 := by
  have hset := countP_set hw (fun w => w.phase != .ended) w'
  by_cases h : w.phase = .ended <;> by_cases h' : w'.phase = .ended <;> simp_all [unended]

theorem unended_pos {workers : List Worker} {i : Nat} {w : Worker} (hw : workers[i]? = some w)
    (h : w.phase ≠ .ended) : 0 < unended workers :=
  List.countP_pos_iff.2 ⟨w, List.mem_of_getElem? hw, by simpa using h⟩

theorem unended_release {i : Nat} {w : Worker} (hw : s.workers[i]? = some w) (credits : Nat) :
    unended (s.workers.set i { w with credits }) = unended s.workers :=
  Nat.add_right_cancel (unended_set hw { w with credits })

theorem keepsMarks_afterMove {i : Nat} {d : Diagnostics} {w w' : Worker}
    {items : List QueueItem} (h : s.KeepsMarks) (hw : s.workers[i]? = some w)
    (hm : w.Move i s.consumer.hasLeft s.diagnostics d w' items) :
    (s.afterMove i d w' items).KeepsMarks := by
  have hset := unended_set hw w'
  unfold KeepsMarks at h ⊢
  show s.remaining = unended (s.workers.set i w') + (s.queue ++ items).count .endMark
  rw [if_neg hm.notEnded] at hset
  rw [List.count_append]
  by_cases hended : w'.phase = .ended
  · rw [if_pos hended] at hset
    rw [hm.mark hended, List.count_singleton_self]
    omega
  · rw [if_neg hended] at hset
    rw [hm.noMark hended]
    omega

theorem keepsMarks_consumer (s t : ParallelRead) (h : s.KeepsMarks) (ht : ConsumerStep s t) :
    t.KeepsMarks := by
  unfold KeepsMarks at h ⊢
  cases ht with
  | take hc hr hq | takeFailure hc hr hq =>
    rw [hq, List.count_cons_of_ne (by simp)] at h
    exact h
  | @takeMark queue remaining hc hr hq =>
    rw [hq, List.count_cons_self, hr] at h
    show remaining = unended s.workers + queue.count .endMark
    omega
  | release hc hw =>
    show s.remaining = unended (s.workers.set _ _) + _
    rw [unended_release hw]
    exact h
  | close hc => exact h

theorem keepsMarks_step (s t : ParallelRead) :
    s.KeepsMarks → Step maxWorkers s t → t.KeepsMarks :=
  kept_of_moves keepsMarks_afterMove keepsMarks_consumer s t

/-- While all workers have ended the queue has a mark at its end, or nothing is in it. -/
def MarkComesLast (s : ParallelRead) : Prop :=
  unended s.workers ≠ 0 ∨ s.queue = [] ∨ s.queue.getLast? = some .endMark

theorem markComesLast_afterMove {i : Nat} {d : Diagnostics} {w w' : Worker}
    {items : List QueueItem} (_h : s.MarkComesLast) (hw : s.workers[i]? = some w)
    (hm : w.Move i s.consumer.hasLeft s.diagnostics d w' items) :
    (s.afterMove i d w' items).MarkComesLast := by
  by_cases hended : w'.phase = .ended
  · refine Or.inr (Or.inr ?_)
    show (s.queue ++ items).getLast? = _
    rw [hm.mark hended, List.getLast?_concat]
  · have hset := unended_set hw w'
    have hpos := unended_pos hw hm.notEnded
    rw [if_neg hm.notEnded, if_neg hended] at hset
    refine Or.inl ?_
    show unended (s.workers.set i w') ≠ 0
    omega

/-- What is behind the first item of a queue ends as the queue does. -/
theorem MarkComesLast.tail (h : s.MarkComesLast) {item : QueueItem} {queue : List QueueItem}
    (hq : s.queue = item :: queue) :
    unended s.workers ≠ 0 ∨ queue = [] ∨ queue.getLast? = some .endMark := by
  rcases h with h | h | h
  · exact Or.inl h
  · rw [hq] at h
    simp at h
  · cases queue with
    | nil => exact Or.inr (Or.inl rfl)
    | cons next queue =>
      rw [hq, List.getLast?_cons_cons] at h
      exact Or.inr (Or.inr h)

theorem markComesLast_consumer (s t : ParallelRead) (h : s.MarkComesLast)
    (ht : ConsumerStep s t) : t.MarkComesLast := by
  cases ht with
  | take hc hr hq | takeMark hc hr hq | takeFailure hc hr hq => exact h.tail hq
  | release hc hw =>
    unfold MarkComesLast
    rw [unended_release hw]
    exact h
  | close hc => exact h

theorem markComesLast_step (s t : ParallelRead) :
    s.MarkComesLast → Step maxWorkers s t → t.MarkComesLast :=
  kept_of_moves markComesLast_afterMove markComesLast_consumer s t

/-! ### Tallies -/

/-- What a worker has counted and what it still has to count are what there is to count, unless the
consumer has left. -/
def KeepsTallies (s : ParallelRead) : Prop :=
  s.consumer.hasLeft = false → ∀ (i : Nat) (w : Worker), s.workers[i]? = some w →
    w.tally + w.uncounted = w.source.tally

theorem keepsTallies_afterMove {i : Nat} {d : Diagnostics} {w w' : Worker}
    {items : List QueueItem} (h : s.KeepsTallies) (hw : s.workers[i]? = some w)
    (hm : w.Move i s.consumer.hasLeft s.diagnostics d w' items) :
    (s.afterMove i d w' items).KeepsTallies := by
  intro hleft
  refine forall_getElem?_set (h hleft) ?_ fun _ _ _ hv => hv
  rw [hm.tally hleft, hm.source]
  exact h hleft i w hw

theorem keepsTallies_consumer (s t : ParallelRead) (h : s.KeepsTallies) (ht : ConsumerStep s t) :
    t.KeepsTallies := by
  intro hleft
  cases ht with
  | take hc hr hq | takeMark hc hr hq => exact h (by rw [hc]; rfl)
  | @release i w hc hw =>
    have hold := h (by rw [hc]; rfl)
    exact forall_getElem?_set hold (hold i w hw) fun _ _ _ hv => hv
  | takeFailure hc hr hq | close hc => simp [Consumer.hasLeft] at hleft

theorem keepsTallies_step (s t : ParallelRead) :
    s.KeepsTallies → Step maxWorkers s t → t.KeepsTallies :=
  kept_of_moves keepsTallies_afterMove keepsTallies_consumer s t

/-- The totals are the sum of what the workers have added to them. -/
def KeepsTotals (s : ParallelRead) : Prop :=
  s.diagnostics.totals = (s.workers.map Worker.merged).sum

theorem keepsTotals_afterMove {i : Nat} {d : Diagnostics} {w w' : Worker}
    {items : List QueueItem} (h : s.KeepsTotals) (hw : s.workers[i]? = some w)
    (hm : w.Move i s.consumer.hasLeft s.diagnostics d w' items) :
    (s.afterMove i d w' items).KeepsTotals := by
  obtain ⟨pre, post, hworkers, hset⟩ := exists_split hw
  unfold KeepsTotals at h ⊢
  show d.totals = ((s.workers.set i w').map Worker.merged).sum
  rw [hworkers, List.map_append, List.map_cons, List.sum_append, List.sum_cons] at h
  rw [hset, List.map_append, List.map_cons, List.sum_append, List.sum_cons]
  have htotals := hm.totals
  rw [h] at htotals
  refine add_right_cancel (b := w.merged) ?_
  rw [htotals]
  ac_rfl

theorem keepsTotals_consumer (s t : ParallelRead) (h : s.KeepsTotals) (ht : ConsumerStep s t) :
    t.KeepsTotals := by
  unfold KeepsTotals at h ⊢
  cases ht with
  | @release i w hc hw =>
    have hsame : (s.workers.set i { w with credits := w.credits + 1 }).map Worker.merged
        = s.workers.map Worker.merged := map_set_of_eq hw rfl
    show s.diagnostics.totals = ((s.workers.set i _).map Worker.merged).sum
    rw [hsame]
    exact h
  | take | takeMark | takeFailure | close => exact h

theorem keepsTotals_step (s t : ParallelRead) :
    s.KeepsTotals → Step maxWorkers s t → t.KeepsTotals :=
  kept_of_moves keepsTotals_afterMove keepsTotals_consumer s t

end ParallelRead

end Scoresheet
