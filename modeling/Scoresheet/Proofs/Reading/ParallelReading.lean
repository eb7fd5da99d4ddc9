import Scoresheet.Proofs.Reading.WorkerInvariants

/-!
# Reading side by side loses, doubles and reorders nothing

Whatever happens in whatever order, the records received of a source are the first ones of the
source, no more of them wait than its buffer holds, and a consumer that finds the queue empty waits
for a worker that can go on. Once the consumer has taken all marks it has all records, and the
totals are those of a read of one source after another (`ParallelRead.loses_nothing`).
-/

namespace Scoresheet.ParallelRead

open Text

variable {maxWorkers bufferGames : Nat} {s t : ParallelRead}

/-! ## The invariants at the start -/

/-- A worker at the start has done nothing. -/
theorem exists_of_mem_start {sources : List (Text × SourceReading)} {w : Worker}
    (h : w ∈ (start bufferGames sources).workers) :
    ∃ path source, w = .start (max 1 bufferGames) path source := by
  obtain ⟨⟨path, source⟩, _, rfl⟩ := List.mem_map.1 h
  exact ⟨path, source, rfl⟩

theorem exists_of_getElem?_start {sources : List (Text × SourceReading)} {i : Nat} {w : Worker}
    (h : (start bufferGames sources).workers[i]? = some w) :
    ∃ path source, w = .start (max 1 bufferGames) path source :=
  exists_of_mem_start (List.mem_of_getElem? h)

theorem sources_start (sources : List (Text × SourceReading)) :
    (start bufferGames sources).sources = sources := by
  unfold ParallelRead.sources start
  rw [List.map_map]
  exact List.map_id sources

theorem keepsRecords_start (sources : List (Text × SourceReading)) :
    (start bufferGames sources).KeepsRecords := by
  intro i w hw
  obtain ⟨path, source, rfl⟩ := exists_of_getElem?_start hw
  exact ⟨[], List.append_nil _, fun _ => rfl⟩

theorem keepsCredits_start (sources : List (Text × SourceReading)) :
    (start bufferGames sources).KeepsCredits (max 1 bufferGames) := by
  intro i w hw
  obtain ⟨path, source, rfl⟩ := exists_of_getElem?_start hw
  rfl

theorem unended_start (sources : List (Text × SourceReading)) :
    unended (start bufferGames sources).workers = sources.length := by
  have hall : ∀ w ∈ (start bufferGames sources).workers, (w.phase != .ended) = true := by
    intro w hw
    obtain ⟨path, source, rfl⟩ := exists_of_mem_start hw
    rfl
  unfold unended
  rw [List.countP_eq_length.2 hall]
  exact List.length_map _

theorem keepsMarks_start (sources : List (Text × SourceReading)) :
    (start bufferGames sources).KeepsMarks := by
  unfold KeepsMarks
  rw [unended_start]
  rfl

theorem markComesLast_start (sources : List (Text × SourceReading)) :
    (start bufferGames sources).MarkComesLast := Or.inr (Or.inl rfl)

theorem keepsTallies_start (sources : List (Text × SourceReading)) :
    (start bufferGames sources).KeepsTallies := by
  intro _ i w hw
  obtain ⟨path, source, rfl⟩ := exists_of_getElem?_start hw
  exact zero_add _

theorem keepsTotals_start (sources : List (Text × SourceReading)) :
    (start bufferGames sources).KeepsTotals := by
  have hall : ∀ t ∈ (start bufferGames sources).workers.map Worker.merged, t = 0 := by
    intro t ht
    obtain ⟨w, hw, rfl⟩ := List.mem_map.1 ht
    obtain ⟨path, source, rfl⟩ := exists_of_mem_start hw
    rfl
  exact (List.sum_eq_zero hall).symm

/-! ## The number of running workers -/

theorem running_start (sources : List (Text × SourceReading)) :
    (start bufferGames sources).running = 0 := by
  refine List.countP_eq_zero.2 fun w hw => ?_
  obtain ⟨path, source, rfl⟩ := exists_of_mem_start hw
  simp [Worker.start, WorkerPhase.isRunning]

/-- A worker starts to run only where one more may, and only a running one goes on. -/
theorem running_le_step (s t : ParallelRead) (h : s.running ≤ maxWorkers)
    (ht : Step maxWorkers s t) : t.running ≤ maxWorkers := by
  cases ht with
  | worker ht =>
    cases ht with
    | @takeUp i w hw hp first free =>
      have hset := countP_set hw (·.phase.isRunning) { w with phase := .reading w.source.games }
      have hidle : w.phase.isRunning = false := by
        rw [hp]
        rfl
      rw [if_neg (by simp [hidle])] at hset
      show (s.workers.set i _).countP (·.phase.isRunning) ≤ maxWorkers
      unfold running at free
      split at hset <;> omega
    | @act i w w' d items hw ha =>
      have hset := countP_set hw (·.phase.isRunning) w'
      rw [if_pos ha.isRunning] at hset
      show (s.workers.set i w').countP (·.phase.isRunning) ≤ maxWorkers
      unfold running at h
      split at hset <;> omega
  | consumer ht =>
    cases ht with
    | @release i w hc hw =>
      have hset := countP_set hw (·.phase.isRunning) { w with credits := w.credits + 1 }
      show (s.workers.set i _).countP (·.phase.isRunning) ≤ maxWorkers
      rw [Nat.add_right_cancel hset]
      exact h
    | take | takeMark | takeFailure | close => exact h

/-! ## Going on -/

namespace Worker

variable {i : Nat} {cancelled : Bool} {w : Worker}

/-- A running worker can go on unless it wants a credit and has none. -/
theorem exists_act (hrunning : w.phase.isRunning = true)
    (hcredits : w.phase.spent = 0 → w.credits ≠ 0) (d : Diagnostics) :
    ∃ d' w' items, w.Act i cancelled d d' w' items := by
  cases hp : w.phase with
  | waiting => simp [hp, WorkerPhase.isRunning] at hrunning
  | reading rest =>
    cases rest with
    | cons game rest => exact ⟨_, _, _, .read hp rfl⟩
    | nil =>
      cases he : w.source.ending with
      | complete => exact ⟨_, _, _, .complete hp he⟩
      | unusable error => exact ⟨_, _, _, .skip hp he rfl⟩
      | oversized numeral => exact ⟨_, _, _, .fail hp he⟩
  | offering record rest =>
    have hsome := hcredits (by rw [hp]; rfl)
    obtain ⟨credits, hc⟩ := Nat.exists_eq_succ_of_ne_zero hsome
    exact ⟨_, _, _, .acquire hp hc⟩
  | putting record rest => exact ⟨_, _, _, .put hp⟩
  | counting => exact ⟨_, _, _, .count hp⟩
  | leaving => exact ⟨_, _, _, .leave hp⟩
  | ended => simp [hp, WorkerPhase.isRunning] at hrunning

end Worker

/-- **No consumer waits in vain**: while the queue is empty and a mark is missing some worker can go
on. -/
theorem exists_workerStep {buffer : Nat} (hbuffer : 0 < buffer) (hworkers : 0 < maxWorkers)
    (hcredits : s.KeepsCredits buffer) (hmarks : s.KeepsMarks) (hc : s.consumer = .taking)
    (hq : s.queue = []) (hr : s.remaining ≠ 0) : ∃ t, WorkerStep maxWorkers s t := by
  have hunended : 0 < unended s.workers := by
    unfold KeepsMarks at hmarks
    rw [hq, List.count_nil] at hmarks
    omega
  by_cases hrunning : ∃ w ∈ s.workers, w.phase.isRunning = true
  · obtain ⟨w, hw, hrun⟩ := hrunning
    obtain ⟨i, hi⟩ := List.getElem?_of_mem hw
    -- nothing of this worker waits, so all its credits are at hand or spent
    have hall := hcredits i w hi
    have hnone : s.unreleased i = 0 := by
      rw [unreleased, queuedFrom, hq, hc]
      rfl
    have hfree : w.phase.spent = 0 → w.credits ≠ 0 := by
      intro hspent
      omega
    obtain ⟨d, w', items, hact⟩ := Worker.exists_act hrun hfree s.diagnostics
    exact ⟨_, .act hi hact⟩
  · -- no worker runs, so the first one that waits may
    have hnot : ∀ w ∈ s.workers, w.phase.isRunning = false := by
      intro w hw
      cases hrun : w.phase.isRunning with
      | false => rfl
      | true => exact absurd ⟨w, hw, hrun⟩ hrunning
    have hwaiting : ∃ w ∈ s.workers, w.phase = .waiting := by
      obtain ⟨w, hw, hended⟩ := List.countP_pos_iff.1 hunended
      refine ⟨w, hw, ?_⟩
      have hrun := hnot w hw
      cases hp : w.phase with
      | waiting => rfl
      | ended => simp [hp] at hended
      | _ => simp [hp, WorkerPhase.isRunning] at hrun
    obtain ⟨i, w, hi, hp, hfirst⟩ := exists_first hwaiting
    have hfree : s.running < maxWorkers := by
      have hzero : s.running = 0 := List.countP_eq_zero.2 fun w hw => by simp [hnot w hw]
      omega
    exact ⟨_, .takeUp hi hp hfirst hfree⟩

/-! ## All invariants -/

/-- What holds of a read of sources in every state that can be reached. -/
structure IsSound (maxWorkers buffer : Nat) (sources : List (Text × SourceReading))
    (s : ParallelRead) : Prop where
  sources_eq : s.sources = sources
  records : s.KeepsRecords
  credits : s.KeepsCredits buffer
  marks : s.KeepsMarks
  last : s.MarkComesLast
  tallies : s.KeepsTallies
  totals : s.KeepsTotals
  running : s.running ≤ maxWorkers

theorem isSound_start (maxWorkers bufferGames : Nat) (sources : List (Text × SourceReading)) :
    (start bufferGames sources).IsSound maxWorkers (max 1 bufferGames) sources where
  sources_eq := sources_start sources
  records := keepsRecords_start sources
  credits := keepsCredits_start sources
  marks := keepsMarks_start sources
  last := markComesLast_start sources
  tallies := keepsTallies_start sources
  totals := keepsTotals_start sources
  running := by
    rw [running_start]
    exact Nat.zero_le _

variable {buffer : Nat} {sources : List (Text × SourceReading)}

theorem isSound_step (s t : ParallelRead) (h : s.IsSound maxWorkers buffer sources)
    (ht : Step maxWorkers s t) : t.IsSound maxWorkers buffer sources where
  sources_eq := (sources_step ht).trans h.sources_eq
  records := keepsRecords_step s t h.records ht
  credits := keepsCredits_step buffer s t h.credits ht
  marks := keepsMarks_step s t h.marks ht
  last := markComesLast_step s t h.last ht
  tallies := keepsTallies_step s t h.tallies ht
  totals := keepsTotals_step s t h.totals ht
  running := running_le_step s t h.running ht

/-- **Every state that can be reached is sound.** -/
theorem Reachable.isSound (h : Reachable maxWorkers (start bufferGames sources) s) :
    s.IsSound maxWorkers (max 1 bufferGames) sources :=
  h.invariant (isSound_start maxWorkers bufferGames sources) isSound_step

/-! ## What soundness means -/

namespace IsSound

theorem length_workers (h : s.IsSound maxWorkers buffer sources) :
    s.workers.length = sources.length := by
  rw [← h.sources_eq, ParallelRead.sources, List.length_map]

/-- The worker of a source. -/
theorem exists_worker (h : s.IsSound maxWorkers buffer sources) {i : Nat} {path : Text}
    {reading : SourceReading} (hi : sources[i]? = some (path, reading)) :
    ∃ w, s.workers[i]? = some w ∧ w.source = reading := by
  rw [← h.sources_eq, ParallelRead.sources, List.getElem?_map] at hi
  obtain ⟨w, hw, hsource⟩ := Option.map_eq_some_iff.1 hi
  exact ⟨w, hw, (Prod.mk.inj hsource).2⟩

theorem running_le (h : s.IsSound maxWorkers buffer sources) :
    s.running ≤ min maxWorkers sources.length := by
  have hle : s.running ≤ s.workers.length := List.countP_le_length
  have hlength := h.length_workers
  have hrunning := h.running
  omega

section OneSource

variable {i : Nat} {path : Text} {reading : SourceReading}

theorem receivedFrom_prefix (h : s.IsSound maxWorkers buffer sources)
    (hi : sources[i]? = some (path, reading)) : s.receivedFrom i <+: reading.records := by
  obtain ⟨w, hw, rfl⟩ := h.exists_worker hi
  obtain ⟨dropped, hall, _⟩ := h.records i w hw
  rw [← hall, List.append_assoc, List.append_assoc]
  exact List.prefix_append _ _

theorem unreleased_le (h : s.IsSound maxWorkers buffer sources)
    (hi : sources[i]? = some (path, reading)) : s.unreleased i ≤ buffer := by
  obtain ⟨w, hw, _⟩ := h.exists_worker hi
  have hcredits := h.credits i w hw
  omega

end OneSource

/-! ### The end -/

/-- After the last mark no worker is at work and nothing waits. -/
theorem of_isFinished (h : s.IsSound maxWorkers buffer sources) (hs : s.IsFinished) :
    (∀ w ∈ s.workers, w.phase = .ended) ∧ s.queue = [] ∧ s.consumer.hasLeft = false := by
  have hmarks := h.marks
  unfold KeepsMarks at hmarks
  rw [hs.2] at hmarks
  have hunended : unended s.workers = 0 := by omega
  have hcount : s.queue.count .endMark = 0 := by omega
  refine ⟨?_, ?_, ?_⟩
  · intro w hw
    have hnot := List.countP_eq_zero.1 hunended w hw
    simpa using hnot
  · rcases h.last with hlast | hlast | hlast
    · exact absurd hunended hlast
    · exact hlast
    · exact absurd (List.mem_of_getLast? hlast) (List.count_eq_zero.1 hcount)
  · rw [hs.1]
    rfl

/-- What an ended worker has left, and what it has added to the totals. -/
theorem of_ended {w : Worker} (hw : w.phase = .ended) :
    w.left = [] ∧ w.uncounted = 0 ∧ w.merged = w.tally := by
  unfold Worker.left Worker.uncounted Worker.merged
  rw [hw]
  exact ⟨rfl, rfl, rfl⟩

/-- At the end all records of a source have been received. -/
theorem receivedFrom_eq (h : s.IsSound maxWorkers buffer sources) (hs : s.IsFinished) {i : Nat}
    {path : Text} {reading : SourceReading} (hi : sources[i]? = some (path, reading)) :
    s.receivedFrom i = reading.records := by
  obtain ⟨hended, hqueue, hleft⟩ := h.of_isFinished hs
  obtain ⟨w, hw, rfl⟩ := h.exists_worker hi
  obtain ⟨dropped, hall, hnone⟩ := h.records i w hw
  obtain ⟨hnil, _, _⟩ := of_ended (hended w (List.mem_of_getElem? hw))
  rw [queuedFrom, hqueue, hnil, hnone hleft, List.append_nil, List.append_nil] at hall
  rw [← hall]
  exact (List.append_nil _).symm

/-- At the end the totals are what there was to count in all sources. -/
theorem totals_eq (h : s.IsSound maxWorkers buffer sources) (hs : s.IsFinished) :
    s.diagnostics.totals = (sources.map fun source => source.2.tally).sum := by
  obtain ⟨hended, _, hleft⟩ := h.of_isFinished hs
  have hmerged : ∀ w ∈ s.workers, w.merged = w.source.tally := by
    intro w hw
    obtain ⟨i, hi⟩ := List.getElem?_of_mem hw
    obtain ⟨_, huncounted, hmerged⟩ := of_ended (hended w hw)
    rw [hmerged, ← h.tallies hleft i w hi, huncounted, add_zero]
  have htotals := h.totals
  unfold KeepsTotals at htotals
  rw [htotals, List.map_congr_left hmerged, ← h.sources_eq, ParallelRead.sources, List.map_map]
  rfl

end IsSound

/-! ## All sources -/

/-- What is read of a source has the place of the source. -/
theorem getElem?_readings (read : Text → SourceReading) {found : List Source} {i : Nat}
    {source : Source} (hi : found[i]? = some source) :
    (found.map fun source => (source.path, read source.path))[i]?
      = some (source.path, read source.path) := by
  rw [List.getElem?_map, hi, Option.map_some]

/-- **Reading side by side loses, doubles and reorders nothing.** In every state that can be reached
the records received of a source are the first ones of the source in their order, no more of its
records wait than its buffer holds, and no more workers run than may. When the consumer has taken
all marks it has received all records of each source, and the totals are those of a read of one
source after another. A consumer that finds the queue empty while a mark is missing waits for a
worker that can go on. -/
theorem loses_nothing {read : Text → SourceReading} {found : List Source}
    (hfound : ∀ source ∈ found, source.explicit = false)
    (hread : ∀ source ∈ found, (read source.path).IsConvertible)
    (hworkers : 2 ≤ maxWorkers) (hbuffer : 1 ≤ bufferGames)
    (hs : Reachable maxWorkers (ofSources read bufferGames found) s) :
    (∀ i source, found[i]? = some source →
      s.receivedFrom i <+: (read source.path).records ∧ s.unreleased i ≤ bufferGames) ∧
    s.running ≤ min maxWorkers found.length ∧
    (s.IsFinished →
      (∀ i source, found[i]? = some source → s.receivedFrom i = (read source.path).records) ∧
      s.diagnostics.totals = (ReadRun.ofSources read none .start found).diagnostics.totals) ∧
    (s.consumer = .taking → s.queue = [] → s.remaining ≠ 0 → ∃ t, WorkerStep maxWorkers s t) := by
  have h := hs.isSound
  rw [Nat.max_eq_right hbuffer] at h
  refine ⟨?_, ?_, ?_, ?_⟩
  · intro i source hi
    have hplace := getElem?_readings read hi
    exact ⟨h.receivedFrom_prefix hplace, h.unreleased_le hplace⟩
  · have hrunning := h.running_le
    rw [List.length_map] at hrunning
    exact hrunning
  · intro hfinished
    refine ⟨fun i source hi => h.receivedFrom_eq hfinished (getElem?_readings read hi), ?_⟩
    rw [h.totals_eq hfinished, (totals_ofSources hfound hread .start).1, List.map_map]
    exact (zero_add _).symm
  · intro hc hq hr
    exact exists_workerStep (by omega) (by omega) h.credits h.marks hc hq hr

/-! ### A run -/

/-- The record of a game of which nothing but the movetext is known. -/
def bareRecord (movetext : Text) : Record where
  event := none
  site := none
  white := none
  black := none
  result := none
  whiteTitle := none
  blackTitle := none
  whiteElo := none
  blackElo := none
  utcDate := none
  utcTime := none
  eco := none
  opening := none
  termination := none
  timeControl := none
  movetext
  parseError := none
  source := none
  outcome := none

/-- Two files, of which the second cannot be opened. -/
def twoFiles : List Source := [⟨['a'], false⟩, ⟨['b'], false⟩]

/-- What reading the two files gives. -/
def readTwo : Text → SourceReading
  | ['a'] => ⟨[⟨bareRecord "1. e4".toList, none⟩], .complete⟩
  | path => ⟨[], .unusable (.notPacked path)⟩

/-- Both workers run at once, and the one that has nothing to read leaves first. -/
theorem loses_nothing_twoFiles :
    (∀ source ∈ twoFiles, source.explicit = false) ∧
      (∀ source ∈ twoFiles, (readTwo source.path).IsConvertible) ∧
      ∃ s, Reachable 2 (ofSources readTwo 1 twoFiles) s ∧ s.IsFinished ∧
        s.receivedFrom 0 = [bareRecord "1. e4".toList] ∧
        s.diagnostics.totals
          = (ReadRun.ofSources readTwo none .start twoFiles).diagnostics.totals := by
  have hfound : ∀ source ∈ twoFiles, source.explicit = false := by decide
  have hread : ∀ source ∈ twoFiles, (readTwo source.path).IsConvertible := by
    intro source hsource n
    rcases List.mem_cons.1 hsource with rfl | hsource
    · simp [readTwo]
    · rw [List.mem_singleton.1 hsource]
      simp [readTwo]
  have h : Reachable 2 (ofSources readTwo 1 twoFiles) (ofSources readTwo 1 twoFiles) := .refl
  have h := h.step (.worker (.takeUp (i := 0) rfl rfl (by decide) (by decide)))
  have h := h.step (.worker (.takeUp (i := 1) rfl rfl (by decide) (by decide)))
  have h := h.step (.worker (.act (i := 0) rfl (.read rfl rfl)))
  have h := h.step (.worker (.act (i := 1) rfl (.skip rfl rfl rfl)))
  have h := h.step (.worker (.act (i := 0) rfl (.acquire rfl rfl)))
  have h := h.step (.worker (.act (i := 1) rfl (.count rfl)))
  have h := h.step (.worker (.act (i := 1) rfl (.leave rfl)))
  have h := h.step (.worker (.act (i := 0) rfl (.put rfl)))
  have h := h.step (.consumer (.takeMark rfl rfl rfl))
  have h := h.step (.consumer (.take rfl (by decide) rfl))
  have h := h.step (.worker (.act (i := 0) rfl (.complete rfl rfl)))
  have h := h.step (.consumer (.release rfl rfl))
  have h := h.step (.worker (.act (i := 0) rfl (.count rfl)))
  have h := h.step (.worker (.act (i := 0) rfl (.leave rfl)))
  have h := h.step (.consumer (.takeMark rfl rfl rfl))
  obtain ⟨_, _, hend, _⟩ := loses_nothing hfound hread (Nat.le_refl 2) (Nat.le_refl 1) h
  obtain ⟨hreceived, htotals⟩ := hend ⟨rfl, rfl⟩
  exact ⟨hfound, hread, _, h, ⟨rfl, rfl⟩, hreceived 0 _ rfl, htotals⟩

end Scoresheet.ParallelRead
