import Scoresheet.Reading.Run

/-!
# Reading sources side by side

The sources that a pattern finds can be read at the same time, each by a worker of its own. The
workers put what they read into one queue, and a consumer takes it out in the order in which it
came.

A worker spends a credit on each record that it puts into the queue. It starts with as many as
records of its source may wait, and the consumer gives a credit back when it is done with a record.
A worker that has read its source adds its tally to the totals first and puts the mark of its end
into the queue afterwards; so the totals are complete for a consumer that has taken the marks of
all workers.

The read is cancelled if the consumer meets a failure or wants no more records. Workers then give up
what they have not read, but still count and leave.

`ParallelRead.Step` says what can happen next. Which of the things that can happen does happen is
left open.
-/

namespace Scoresheet

open Text

/-! ## Workers -/

/-- What a worker is at. -/
inductive WorkerPhase
  /-- The source has not been taken up. -/
  | waiting
  /-- The worker reads; `rest` are the games that it has not read. -/
  | reading (rest : List GameReading)
  /-- The worker has read a game and wants a credit for its record. -/
  | offering (record : Record) (rest : List GameReading)
  /-- The worker has spent a credit on the record and is to put it into the queue. -/
  | putting (record : Record) (rest : List GameReading)
  /-- The source is done with and its tally is to be added to the totals. -/
  | counting
  /-- The mark of the end is to be put into the queue. -/
  | leaving
  | ended
  deriving DecidableEq, Repr

namespace WorkerPhase

/-- A worker is running from when it takes up its source until it has put its mark into the
queue. -/
def isRunning : WorkerPhase → Bool
  | waiting | ended => false
  | _ => true

/-- The worker looks here whether the read is cancelled: before it reads a game, and while it waits
for a credit. -/
def mayQuit : WorkerPhase → Bool
  | reading _ | offering _ _ => true
  | _ => false

end WorkerPhase

/-- A worker and the source that it reads. -/
structure Worker where
  path : Text
  /-- What reading the source gives. -/
  source : SourceReading
  phase : WorkerPhase
  tally : Tally
  /-- The number of records that it may put into the queue before one is given back. -/
  credits : Nat
  deriving DecidableEq, Repr

/-- What workers put into the queue. -/
inductive QueueItem
  | record (worker : Nat) (record : Record)
  /-- A numeral that is too long to convert. -/
  | failure (numeral : OversizedNumeral)
  /-- A worker has come to its end. -/
  | endMark
  deriving DecidableEq, Repr

namespace Worker

/-- A worker before it takes up its source. -/
def start (credits : Nat) (path : Text) (source : SourceReading) : Worker :=
  ⟨path, source, .waiting, .zero, credits⟩

/-- What the `i`-th worker may do on its own, given whether the read is cancelled and what was
counted and warned of before: the diagnostics and the worker afterwards, and what it puts into the
queue. -/
inductive Act (i : Nat) (cancelled : Bool) (d : Diagnostics) (w : Worker) :
    Diagnostics → Worker → List QueueItem → Prop
  /-- It reads a game and counts it. -/
  | read {game : GameReading} {rest : List GameReading} {d' : Diagnostics} {tally : Tally}
      (hp : w.phase = .reading (game :: rest)) (hn : ReadRun.note (d, w.tally) game = (d', tally)) :
      Act i cancelled d w d' { w with phase := .offering game.record rest, tally } []
  /-- It spends a credit on a record. -/
  | acquire {record : Record} {rest : List GameReading} {credits : Nat}
      (hp : w.phase = .offering record rest) (hc : w.credits = credits + 1) :
      Act i cancelled d w d { w with phase := .putting record rest, credits } []
  | put {record : Record} {rest : List GameReading} (hp : w.phase = .putting record rest) :
      Act i cancelled d w d { w with phase := .reading rest } [.record i record]
  /-- It has read its source to the end. -/
  | complete (hp : w.phase = .reading []) (he : w.source.ending = .complete) :
      Act i cancelled d w d { w with phase := .counting } []
  /-- Its source cannot be read any further, and it warns of that. -/
  | skip {error : SourceError} {d' : Diagnostics} {tally : Tally} (hp : w.phase = .reading [])
      (he : w.source.ending = .unusable error)
      (hs : d.sourceSkipped w.tally w.path error.message = (d', tally)) :
      Act i cancelled d w d' { w with phase := .counting, tally } []
  /-- It meets a numeral that is too long to convert. -/
  | fail {numeral : OversizedNumeral} (hp : w.phase = .reading [])
      (he : w.source.ending = .oversized numeral) :
      Act i cancelled d w d { w with phase := .counting } [.failure numeral]
  /-- It gives up its source because the read is cancelled. -/
  | quit (hcancelled : cancelled = true) (hp : w.phase.mayQuit = true) :
      Act i cancelled d w d { w with phase := .counting } []
  /-- It adds its tally to the totals. -/
  | count (hp : w.phase = .counting) :
      Act i cancelled d w (d.merge w.tally) { w with phase := .leaving } []
  /-- It puts the mark of its end into the queue. -/
  | leave (hp : w.phase = .leaving) :
      Act i cancelled d w d { w with phase := .ended } [.endMark]

end Worker

/-! ## The state of a read -/

/-- What the consumer is at. -/
inductive Consumer
  /-- It takes the next item, unless it has taken the marks of all workers. -/
  | taking
  /-- It has passed a record of a worker on. -/
  | passing (worker : Nat)
  /-- It has taken a failure. -/
  | failed (numeral : OversizedNumeral)
  /-- It wanted no more records after one of a worker. -/
  | closed (worker : Nat)
  deriving DecidableEq, Repr

/-- The consumer has left before the end. -/
def Consumer.hasLeft : Consumer → Bool
  | taking | passing _ => false
  | failed _ | closed _ => true

/-- The state of a read with workers. -/
structure ParallelRead where
  workers : List Worker
  queue : List QueueItem
  consumer : Consumer
  /-- The number of marks that the consumer has not taken. -/
  remaining : Nat
  /-- The records that the consumer has passed on, each with its worker. -/
  received : List (Nat × Record)
  diagnostics : Diagnostics
  deriving DecidableEq, Repr

namespace ParallelRead

/-- The state before anything happens, for sources with what reading them gives. At least one
record of each source may wait. -/
def start (bufferGames : Nat) (sources : List (Text × SourceReading)) : ParallelRead where
  workers := sources.map fun (path, source) => .start (max 1 bufferGames) path source
  queue := []
  consumer := .taking
  remaining := sources.length
  received := []
  diagnostics := .start

/-- The state before sources are read that were found by a pattern. `read` says what each gives. -/
def ofSources (read : Text → SourceReading) (bufferGames : Nat) (found : List Source) :
    ParallelRead :=
  start bufferGames (found.map fun source => (source.path, read source.path))

/-- The number of workers that are running. -/
def running (s : ParallelRead) : Nat := s.workers.countP (·.phase.isRunning)

/-- The consumer has taken the marks of all workers. -/
def IsFinished (s : ParallelRead) : Prop := s.consumer = .taking ∧ s.remaining = 0

/-- The read as far as the consumer has come, its records in the order in which they came. -/
def toRun (s : ParallelRead) : ReadRun where
  records := s.received.map Prod.snd
  diagnostics := s.diagnostics
  failure := match s.consumer with
    | .failed numeral => some (.oversized numeral)
    | _ => none

/-! ## What can happen -/

/-- A worker goes on. Sources are taken up in their order, and no more than `maxWorkers` workers
run. -/
inductive WorkerStep (maxWorkers : Nat) (s : ParallelRead) : ParallelRead → Prop
  /-- A worker takes up its source. -/
  | takeUp {i : Nat} {w : Worker} (hw : s.workers[i]? = some w) (hp : w.phase = .waiting)
      (first : ∀ v ∈ s.workers.take i, v.phase ≠ .waiting) (free : s.running < maxWorkers) :
      WorkerStep maxWorkers s { s with
        workers := s.workers.set i { w with phase := .reading w.source.games } }
  /-- A running worker does what it may do. -/
  | act {i : Nat} {w w' : Worker} {d : Diagnostics} {items : List QueueItem}
      (hw : s.workers[i]? = some w)
      (ha : w.Act i s.consumer.hasLeft s.diagnostics d w' items) :
      WorkerStep maxWorkers s { s with
        workers := s.workers.set i w', queue := s.queue ++ items, diagnostics := d }

/-- The consumer goes on. It looks into the queue as long as a mark is missing. -/
inductive ConsumerStep (s : ParallelRead) : ParallelRead → Prop
  /-- It takes a record and passes it on. -/
  | take {i : Nat} {record : Record} {queue : List QueueItem} (hc : s.consumer = .taking)
      (hr : s.remaining ≠ 0) (hq : s.queue = .record i record :: queue) :
      ConsumerStep s { s with
        queue, consumer := .passing i, received := s.received ++ [(i, record)] }
  /-- It is done with a record and gives the credit back. -/
  | release {i : Nat} {w : Worker} (hc : s.consumer = .passing i) (hw : s.workers[i]? = some w) :
      ConsumerStep s { s with
        consumer := .taking, workers := s.workers.set i { w with credits := w.credits + 1 } }
  /-- It takes the mark of a worker. -/
  | takeMark {queue : List QueueItem} {remaining : Nat} (hc : s.consumer = .taking)
      (hr : s.remaining = remaining + 1) (hq : s.queue = .endMark :: queue) :
      ConsumerStep s { s with queue, remaining }
  /-- It takes a failure, which cancels the read. -/
  | takeFailure {numeral : OversizedNumeral} {queue : List QueueItem} (hc : s.consumer = .taking)
      (hr : s.remaining ≠ 0) (hq : s.queue = .failure numeral :: queue) :
      ConsumerStep s { s with queue, consumer := .failed numeral }
  /-- The record that it passed on was the last one wanted, which cancels the read. -/
  | close {i : Nat} (hc : s.consumer = .passing i) :
      ConsumerStep s { s with consumer := .closed i }

/-- One thing that happens. -/
inductive Step (maxWorkers : Nat) (s t : ParallelRead) : Prop
  | worker (h : WorkerStep maxWorkers s t)
  | consumer (h : ConsumerStep s t)

/-- A state that can be reached from another one. -/
inductive Reachable (maxWorkers : Nat) (s : ParallelRead) : ParallelRead → Prop
  | refl : Reachable maxWorkers s s
  | step {t u : ParallelRead} (ht : Reachable maxWorkers s t) (hu : Step maxWorkers t u) :
      Reachable maxWorkers s u

/-! ## What is in transit -/

/-- The records of one worker among items of the queue. -/
def recordsOf (i : Nat) (items : List QueueItem) : List Record :=
  items.filterMap fun
    | .record j record => if j = i then some record else none
    | _ => none

/-- The records of one worker that wait in the queue. -/
def queuedFrom (s : ParallelRead) (i : Nat) : List Record := recordsOf i s.queue

/-- The records of one worker that the consumer has passed on. -/
def receivedFrom (s : ParallelRead) (i : Nat) : List Record :=
  s.received.filterMap fun (j, record) => if j = i then some record else none

end ParallelRead

end Scoresheet
