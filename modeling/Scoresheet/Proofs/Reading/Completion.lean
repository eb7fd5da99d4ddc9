import Scoresheet.Proofs.Reading.Interleaving

/-!
# Reads with workers come to an end

Each thing that happens brings a read nearer to its end, whoever does it (`effort_step_lt`), so no
read goes on forever (`wellFounded_step`). A read in which nothing more can happen is over: the
consumer has taken all marks or has left (`Reachable.isOver_of_forall_not_step`).
-/

namespace Scoresheet

open Text

/-! ## What is still to be done -/

/-- What is to be done for the elements of a list, all in all. -/
def total {α : Type} (effort : α → Nat) : List α → Nat
  | [] => 0
  | a :: l => effort a + total effort l

theorem total_append {α : Type} (effort : α → Nat) (l l' : List α) :
    total effort (l ++ l') = total effort l + total effort l' := by
  induction l with
  | nil => exact (Nat.zero_add _).symm
  | cons a l ih => rw [List.cons_append, total, total, ih, Nat.add_assoc]

/-- More than the number of things that a worker does from here, and that are done with what it puts
into the queue. -/
def WorkerPhase.effort (games : List GameReading) : WorkerPhase → Nat
  | waiting => 5 * games.length + 6
  | reading rest => 5 * rest.length + 5
  | offering _ rest => 5 * rest.length + 9
  | putting _ rest => 5 * rest.length + 8
  | counting => 3
  | leaving => 2
  | ended => 0

/-- A record is taken, and a credit is given back for it. -/
def QueueItem.effort : QueueItem → Nat
  | record _ _ => 2
  | failure _ | endMark => 1

def Consumer.effort : Consumer → Nat
  | passing _ => 1
  | taking | failed _ | closed _ => 0

def Worker.effort (w : Worker) : Nat := w.phase.effort w.source.games

/-- What a worker does on its own costs more than what it leaves to be done. -/
theorem Worker.Act.effort_lt {i : Nat} {cancelled : Bool} {d d' : Diagnostics} {w w' : Worker}
    {items : List QueueItem} (h : w.Act i cancelled d d' w' items) :
    w'.effort + total QueueItem.effort items < w.effort := by
  cases h with
  | quit hcancelled hp =>
    cases hphase : w.phase <;>
      simp_all [Worker.effort, WorkerPhase.effort, WorkerPhase.mayQuit, total]
  | read hp =>
    simp only [Worker.effort, hp, WorkerPhase.effort, List.length_cons, total]
    omega
  | acquire hp | put hp | complete hp | skip hp | fail hp | count hp | leave hp =>
    simp [Worker.effort, hp, WorkerPhase.effort, QueueItem.effort, total]

namespace ParallelRead

variable {maxWorkers : Nat} {s t : ParallelRead}

/-- What is still to be done. -/
def effort (s : ParallelRead) : Nat :=
  total Worker.effort s.workers + total QueueItem.effort s.queue + s.consumer.effort

theorem total_effort_set {workers : List Worker} {i : Nat} {w : Worker} (hw : workers[i]? = some w)
    (w' : Worker) : total Worker.effort (workers.set i w') + w.effort
      = total Worker.effort workers + w'.effort := by
  obtain ⟨pre, post, rfl, hset⟩ := exists_split hw
  simp only [hset, total_append, total]
  omega

/-- **Each step brings the read nearer to its end.** -/
theorem effort_step_lt (h : Step maxWorkers s t) : t.effort < s.effort := by
  cases h with
  | worker h =>
    cases h with
    | @takeUp i w hw hp =>
      have htotal := total_effort_set hw { w with phase := .reading w.source.games }
      have hold : w.effort = 5 * w.source.games.length + 6 := by rw [Worker.effort, hp]; rfl
      have hnew : Worker.effort { w with phase := .reading w.source.games }
        = 5 * w.source.games.length + 5 := rfl
      simp only [effort]
      omega
    | @act i w w' d items hw ha =>
      have htotal := total_effort_set hw w'
      have hlt := ha.effort_lt
      simp only [effort, total_append]
      omega
  | consumer h =>
    cases h with
    | take hc hr hq | takeMark hc hr hq | takeFailure hc hr hq =>
      simp only [effort, hc, hq, total, QueueItem.effort, Consumer.effort]
      omega
    | @release i w hc hw =>
      have htotal := total_effort_set hw { w with credits := w.credits + 1 }
      have hsame : Worker.effort { w with credits := w.credits + 1 } = w.effort := rfl
      simp only [effort, hc, Consumer.effort]
      omega
    | close hc => simp [effort, hc, Consumer.effort]

/-- **No read goes on forever.** -/
theorem wellFounded_step (maxWorkers : Nat) :
    WellFounded fun t s : ParallelRead => Step maxWorkers s t :=
  Subrelation.wf (fun h => effort_step_lt h) (measure effort).wf

/-! ## Where nothing more can happen -/

/-- The consumer has taken all marks, or has left. -/
def IsOver (s : ParallelRead) : Prop := s.IsFinished ∨ s.consumer.hasLeft = true

/-- Records come from workers, and the last one may be waiting for its credit to be given back. -/
structure KnowsWorkers (s : ParallelRead) : Prop where
  origins : s.KeepsOrigins
  passing : ∀ i, s.consumer = .passing i → i < s.workers.length

theorem knowsWorkers_start (bufferGames : Nat) (sources : List (Text × SourceReading)) :
    (start bufferGames sources).KnowsWorkers :=
  ⟨fun _ _ => rfl, fun _ h => by cases h⟩

theorem knowsWorkers_step (s t : ParallelRead) (h : s.KnowsWorkers) (ht : Step maxWorkers s t) :
    t.KnowsWorkers := by
  refine ⟨keepsOrigins_step s t h.origins ht, ?_⟩
  cases ht with
  | worker ht =>
    obtain ⟨i, w, d, w', items, hw, hm, rfl⟩ := ht.exists_move
    show ∀ j, s.consumer = .passing j → j < (s.workers.set i w').length
    rw [List.length_set]
    exact h.passing
  | consumer ht =>
    cases ht with
    | @take i record queue hc hr hq =>
      rintro j hj
      obtain rfl : i = j := Consumer.passing.inj hj
      by_contra hnot
      have hnil := (List.append_eq_nil_iff.1 (h.origins i (Nat.le_of_not_lt hnot))).2
      simp [queuedFrom, recordsOf, hq] at hnil
    | release | close => exact fun j hj => by cases hj
    | takeMark hc | takeFailure hc => exact fun j hj => by simp [hc] at hj

/-- The consumer is done with the record that it passed on. -/
theorem KnowsWorkers.exists_release (h : s.KnowsWorkers) {i : Nat} (hc : s.consumer = .passing i)
    (maxWorkers : Nat) :
    ∃ t, Step maxWorkers s t ∧ t.consumer = .taking ∧ t.received = s.received :=
  ⟨_, .consumer (.release hc (List.getElem?_eq_getElem (h.passing i hc))), rfl, rfl⟩

/-- How the read goes on for a consumer that takes the next item. -/
inductive GoesOn (s t : ParallelRead) : Prop
  | waits (hc : t.consumer = .taking) (hreceived : t.received = s.received)
  | passes {i : Nat} {record : Record} (hc : t.consumer = .passing i)
      (hreceived : t.received = s.received ++ [(i, record)])
  | fails {numeral : OversizedNumeral} (hc : t.consumer = .failed numeral)
      (hreceived : t.received = s.received)

/-- A consumer that misses a mark takes the next item, or a worker goes on. -/
theorem IsSound.exists_step {buffer : Nat} {sources : List (Text × SourceReading)}
    (h : s.IsSound maxWorkers buffer sources) (hworkers : 0 < maxWorkers) (hbuffer : 0 < buffer)
    (hc : s.consumer = .taking) (hr : s.remaining ≠ 0) :
    ∃ t, Step maxWorkers s t ∧ s.GoesOn t := by
  cases hq : s.queue with
  | nil =>
    obtain ⟨t, ht⟩ := exists_workerStep hbuffer hworkers h.credits h.marks hc hq hr
    refine ⟨t, .worker ht, ?_⟩
    obtain ⟨i, w, d, w', items, _, _, rfl⟩ := ht.exists_move
    exact .waits hc rfl
  | cons item queue =>
    cases item with
    | record i record => exact ⟨_, .consumer (.take hc hr hq), .passes rfl rfl⟩
    | failure numeral => exact ⟨_, .consumer (.takeFailure hc hr hq), .fails rfl rfl⟩
    | endMark =>
      obtain ⟨remaining, hr⟩ := Nat.exists_eq_succ_of_ne_zero hr
      exact ⟨_, .consumer (.takeMark hc hr hq), .waits hc rfl⟩

/-- **A read in which nothing more can happen is over.** -/
theorem Reachable.isOver_of_forall_not_step {bufferGames : Nat}
    {sources : List (Text × SourceReading)} (hworkers : 0 < maxWorkers)
    (hs : Reachable maxWorkers (start bufferGames sources) s)
    (hstuck : ∀ t, ¬Step maxWorkers s t) : s.IsOver := by
  have hknows := hs.invariant (knowsWorkers_start bufferGames sources) knowsWorkers_step
  cases hc : s.consumer with
  | taking =>
    refine Or.inl ⟨hc, by_contra fun hr => ?_⟩
    obtain ⟨t, ht, _⟩ := hs.isSound.exists_step hworkers (Nat.le_max_left 1 _) hc hr
    exact hstuck t ht
  | passing i =>
    obtain ⟨t, ht, _⟩ := hknows.exists_release hc maxWorkers
    exact absurd ht (hstuck t)
  | failed numeral | closed i => exact Or.inr (by rw [hc]; rfl)

end ParallelRead

end Scoresheet
