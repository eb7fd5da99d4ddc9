import Scoresheet.Proofs.Reading.Tallies
import Scoresheet.Reading.Workers

/-!
# What a worker's move does

A worker either takes up its source or does something on its own. Here it is said once what any such
move does (`Worker.Move`): it hands on records without changing their order, spends a credit for
each of them, counts each game once, and leaves the queue a mark only as its last deed. What holds
of a read with workers is derived from this alone.
-/

namespace Scoresheet

open Text

/-! ## What a worker has before it -/

namespace WorkerPhase

/-- The games that have not been read, of a source with `games`. -/
def unread (games : List GameReading) : WorkerPhase → List GameReading
  | waiting => games
  | reading rest | offering _ rest | putting _ rest => rest
  | counting | leaving | ended => []

/-- The record that has been read but not put into the queue. -/
def inHand : WorkerPhase → List Record
  | offering record _ | putting record _ => [record]
  | waiting | reading _ | counting | leaving | ended => []

/-- The number of credits that have been spent on records not yet in the queue. -/
def spent : WorkerPhase → Nat
  | putting _ _ => 1
  | waiting | reading _ | offering _ _ | counting | leaving | ended => 0

/-- The source is done with. -/
def isDone : WorkerPhase → Bool
  | counting | leaving | ended => true
  | waiting | reading _ | offering _ _ | putting _ _ => false

/-- The tally has been added to the totals. -/
def hasCounted : WorkerPhase → Bool
  | leaving | ended => true
  | waiting | reading _ | offering _ _ | putting _ _ | counting => false

/-- Where a worker may give up its source it has spent nothing on it and has not counted yet. -/
theorem of_mayQuit {p : WorkerPhase} (h : p.mayQuit = true) :
    p.spent = 0 ∧ p.isRunning = true ∧ p.hasCounted = false := by
  cases p with
  | reading rest | offering record rest => exact ⟨rfl, rfl, rfl⟩
  | waiting | putting record rest | counting | leaving | ended => simp [mayQuit] at h

end WorkerPhase

namespace Worker

/-- The records that are still to be put into the queue. -/
def left (w : Worker) : List Record :=
  w.phase.inHand ++ (w.phase.unread w.source.games).map GameReading.record

/-- What is still to be counted. -/
def uncounted (w : Worker) : Tally :=
  if w.phase.isDone then 0
  else ((w.phase.unread w.source.games).map GameReading.tally).sum + w.source.ending.tally

/-- What the worker has added to the totals. -/
def merged (w : Worker) : Tally := if w.phase.hasCounted then w.tally else 0

/-! ## Moves -/

open ParallelRead

/-- What every move of the `i`-th worker does, given whether the read is cancelled. -/
structure Move (i : Nat) (cancelled : Bool) (d : Diagnostics) (w : Worker) (d' : Diagnostics)
    (w' : Worker) (items : List QueueItem) : Prop where
  path : w'.path = w.path
  source : w'.source = w.source
  /-- Records leave in their order. They are dropped only if the read is cancelled. -/
  records : ∃ dropped, recordsOf i items ++ w'.left ++ dropped = w.left ∧
    (cancelled = false → dropped = [])
  others : ∀ j, j ≠ i → recordsOf j items = []
  credits : w'.credits + w'.phase.spent + (recordsOf i items).length = w.credits + w.phase.spent
  notEnded : w.phase ≠ .ended
  mark : w'.phase = .ended → items = [.endMark]
  noMark : w'.phase ≠ .ended → items.count .endMark = 0
  tally : cancelled = false → w'.tally + w'.uncounted = w.tally + w.uncounted
  totals : d'.totals + w.merged = d.totals + w'.merged

variable {i : Nat} {cancelled : Bool} {d d' : Diagnostics} {w w' : Worker}
  {items : List QueueItem}

/-- To take up a source changes nothing that matters to others. -/
theorem move_takeUp (hp : w.phase = .waiting) :
    Move i cancelled d w d { w with phase := .reading w.source.games } [] where
  path := rfl
  source := rfl
  records := by
    refine ⟨[], ?_, fun _ => rfl⟩
    simp [left, hp, WorkerPhase.inHand, WorkerPhase.unread, recordsOf]
  others _ _ := rfl
  credits := by simp [hp, WorkerPhase.spent, recordsOf]
  notEnded := by simp [hp]
  mark h := by simp at h
  noMark _ := rfl
  tally _ := by simp [uncounted, hp, WorkerPhase.isDone, WorkerPhase.unread]
  totals := by simp [merged, hp, WorkerPhase.hasCounted]

namespace Act

theorem records (h : w.Act i cancelled d d' w' items) :
    ∃ dropped, recordsOf i items ++ w'.left ++ dropped = w.left ∧
      (cancelled = false → dropped = []) := by
  cases h with
  | quit hcancelled hp =>
    refine ⟨w.left, ?_, by simp [hcancelled]⟩
    simp [left, recordsOf, WorkerPhase.inHand, WorkerPhase.unread]
  | read hp | acquire hp | put hp | complete hp | skip hp | fail hp | count hp | leave hp =>
    exact ⟨[], by simp [left, hp, recordsOf, WorkerPhase.inHand, WorkerPhase.unread], fun _ => rfl⟩

/-- Only its own records does a worker put into the queue. -/
theorem others (h : w.Act i cancelled d d' w' items) {j : Nat} (hj : j ≠ i) :
    recordsOf j items = [] := by
  cases h with
  | put hp => simp [recordsOf, Ne.symm hj]
  | _ => rfl

theorem credits (h : w.Act i cancelled d d' w' items) :
    w'.credits + w'.phase.spent + (recordsOf i items).length = w.credits + w.phase.spent := by
  cases h with
  | quit hcancelled hp =>
    show w.credits + 0 + 0 = w.credits + w.phase.spent
    rw [(WorkerPhase.of_mayQuit hp).1]
  | acquire hp hc => simp [hp, hc, WorkerPhase.spent, recordsOf]
  | read hp | put hp | complete hp | skip hp | fail hp | count hp | leave hp =>
    simp [hp, WorkerPhase.spent, recordsOf]

theorem isRunning (h : w.Act i cancelled d d' w' items) : w.phase.isRunning = true := by
  cases h with
  | quit hcancelled hp => exact (WorkerPhase.of_mayQuit hp).2.1
  | read hp | acquire hp | put hp | complete hp | skip hp | fail hp | count hp | leave hp =>
    simp [hp, WorkerPhase.isRunning]

theorem mark (h : w.Act i cancelled d d' w' items) (hended : w'.phase = .ended) :
    items = [.endMark] := by
  cases h with
  | leave hp => rfl
  | _ => simp at hended

theorem noMark (h : w.Act i cancelled d d' w' items) (hended : w'.phase ≠ .ended) :
    items.count .endMark = 0 := by
  cases h with
  | leave hp => exact absurd rfl hended
  | _ => rfl

/-- Each game is counted when it is read, and the end of the source when it is met. -/
theorem tally (h : w.Act i cancelled d d' w' items) (hcancelled : cancelled = false) :
    w'.tally + w'.uncounted = w.tally + w.uncounted := by
  cases h with
  | @read game rest d' tally hp hn =>
    have htally : tally = w.tally + game.tally := by rw [← note_snd d w.tally game, hn]
    simp [uncounted, hp, WorkerPhase.isDone, WorkerPhase.unread, htally, add_assoc]
  | skip hp he hs =>
    obtain ⟨rfl, rfl⟩ := Prod.mk.inj hs
    simp [uncounted, hp, he, WorkerPhase.isDone, WorkerPhase.unread, SourceEnd.tally]
    rfl
  | complete hp he | fail hp he =>
    simp [uncounted, hp, he, WorkerPhase.isDone, WorkerPhase.unread, SourceEnd.tally]
  | quit hquit hp => simp [hquit] at hcancelled
  | acquire hp | put hp | count hp | leave hp =>
    simp [uncounted, hp, WorkerPhase.isDone, WorkerPhase.unread]

/-- Totals change only when a tally is added to them. -/
theorem totals (h : w.Act i cancelled d d' w' items) :
    d'.totals + w.merged = d.totals + w'.merged := by
  cases h with
  | @read game rest d' tally hp hn =>
    have htotals : d'.totals = d.totals := by rw [← totals_note d w.tally game, hn]
    simp [merged, hp, WorkerPhase.hasCounted, htotals]
  | skip hp he hs =>
    obtain ⟨rfl, rfl⟩ := Prod.mk.inj hs
    simp [merged, hp, WorkerPhase.hasCounted]
  | quit hcancelled hp =>
    have hmerged : w.merged = 0 := by
      rw [merged, (WorkerPhase.of_mayQuit hp).2.2]
      rfl
    rw [hmerged]
    rfl
  | count hp => simp [merged, hp, WorkerPhase.hasCounted, Diagnostics.totals_merge]
  | acquire hp | put hp | complete hp | fail hp | leave hp =>
    simp [merged, hp, WorkerPhase.hasCounted]

/-- **What a worker does on its own is a move.** -/
theorem move (h : w.Act i cancelled d d' w' items) : Move i cancelled d w d' w' items where
  path := by cases h <;> rfl
  source := by cases h <;> rfl
  records := h.records
  others _ := h.others
  credits := h.credits
  notEnded := by
    intro hended
    have hrunning := h.isRunning
    simp [hended, WorkerPhase.isRunning] at hrunning
  mark := h.mark
  noMark := h.noMark
  tally := h.tally
  totals := h.totals

end Act

end Worker

/-! ## Steps of workers -/

namespace ParallelRead

/-- The state after the move of a worker. -/
def afterMove (s : ParallelRead) (i : Nat) (d : Diagnostics) (w : Worker) (items : List QueueItem) :
    ParallelRead :=
  { s with workers := s.workers.set i w, queue := s.queue ++ items, diagnostics := d }

/-- **Every step of a worker is a move of one worker.** -/
theorem WorkerStep.exists_move {maxWorkers : Nat} {s t : ParallelRead}
    (h : WorkerStep maxWorkers s t) :
    ∃ i w d w' items, s.workers[i]? = some w ∧
      w.Move i s.consumer.hasLeft s.diagnostics d w' items ∧ t = s.afterMove i d w' items := by
  cases h with
  | takeUp hw hp => exact ⟨_, _, _, _, [], hw, Worker.move_takeUp hp, by simp [afterMove]⟩
  | act hw ha => exact ⟨_, _, _, _, _, hw, ha.move, rfl⟩

end ParallelRead

end Scoresheet
