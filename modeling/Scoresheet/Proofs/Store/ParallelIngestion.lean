import Scoresheet.Proofs.Reading.Completion
import Scoresheet.Proofs.Store.Ingestion

/-!
# Ingestion with several workers

Records come in any order that keeps those of each source in theirs, and are stored in the order in
which they come. If all ratings fit into 64 bits, every row is stored, and what is reported is what
an ingestion without workers reports. Otherwise the ingestion stops at a batch of the rows that have
come (`Database.ingests_stores_or_stops`). Either way it comes to a result
(`Database.exists_ingests`).
-/

namespace Scoresheet

open Text

namespace Database

/-- What is stored to the end could be put into the sink. -/
theorem canAdd_of_storeRun {games : GamesTable} {batchSize : Int} {run : ReadRun}
    {summary : IngestSummary} (h : (storeRun games batchSize run).2 = .ok summary) :
    CanAdd games batchSize run.records := by
  unfold storeRun at h
  unfold CanAdd
  revert h
  rcases (Sink.start batchSize games).addAll (run.records.map GameRow.ofRecord) with
    ⟨sink, number | ⟨⟩⟩
  · exact fun h => nomatch h
  · exact fun _ => rfl

/-- The records of each source. -/
abbrev sourceRecords (tree : FileTree) (compression : Compression) (sources : List Source) :
    List (List Record) :=
  sources.map fun source => (Source.readAt tree compression source.path).records

/-- What all sources add to the totals. -/
abbrev sourceTally (tree : FileTree) (compression : Compression) (sources : List Source) : Tally :=
  (sources.map fun source => (Source.readAt tree compression source.path).tally).sum

section Sources

variable {db : Database} {settings : Settings} {tree : FileTree} {path : Text}
  {compression : Compression} {sources : List Source}

/-- An ingestion without workers stores the rows of all sources one after another, or stops at a
batch of them. -/
theorem ingest_stores_or_stops (db : Database) (hpath : settings.pgnPath = some path)
    (hfound : ReadRun.findSources tree path settings.compression = .ok (compression, sources))
    (hexplicit : ∀ source ∈ sources,
      (Source.readAt tree compression source.path).ending ≠ .complete → source.explicit = false)
    (hread : ∀ source ∈ sources, (Source.readAt tree compression source.path).IsConvertible) :
    ((∀ r ∈ (sourceRecords tree compression sources).flatten, r.HasStorableRatings) →
        db.StoresAll (sourceRecords tree compression sources).flatten (db.ingest settings tree) ∧
          (db.ingest settings tree).2 = .ok ⟨sourceTally tree compression sources,
            (sourceRecords tree compression sources).flatten.length⟩) ∧
      ((∃ r ∈ (sourceRecords tree compression sources).flatten, ¬r.HasStorableRatings) →
        db.StopsAtBatch (max 1 settings.batchSize) (sourceRecords tree compression sources).flatten
          (db.ingest settings tree)) := by
  obtain ⟨d, hrun, htotals⟩ := ReadRun.ofPattern_of_findSources hfound hexplicit hread
  have hcount := (congrArg Tally.games htotals).trans (ReadRun.games_sum_tally_sources hread)
  rw [ingest, hpath]
  dsimp only
  rw [ingestFrom, hrun, sourceTally, ← htotals]
  exact db.storeRun_stores_or_stops ⟨_, d, none⟩ rfl hcount settings.batchSize

/-- A consumer that takes the records of workers in the order in which they come stores them all, or
stops at a batch of them. -/
theorem store_stores_or_stops
    (hread : ∀ source ∈ sources, (Source.readAt tree compression source.path).IsConvertible)
    {s : ParallelRead} (hs : ParallelRead.Reachable settings.maxWorkers
      (.ofSources (Source.readAt tree compression) settings.bufferGames sources) s)
    (hend : IsStored db.games settings.batchSize s) :
    ∃ more, IsInterleaving (sourceRecords tree compression sources) (s.toRun.records ++ more) ∧
      ((∀ r ∈ s.toRun.records ++ more, r.HasStorableRatings) →
        more = [] ∧ db.StoresAll s.toRun.records (db.store s settings.batchSize) ∧
          (db.store s settings.batchSize).2
            = .ok ⟨sourceTally tree compression sources, s.toRun.records.length⟩) ∧
      ((∃ r ∈ s.toRun.records ++ more, ¬r.HasStorableRatings) →
        db.StopsAtBatch (max 1 settings.batchSize) s.toRun.records
          (db.store s settings.batchSize)) := by
  have hfailure : s.toRun.failure = none := by
    unfold ParallelRead.toRun
    cases hc : s.consumer with
    | failed numeral => exact absurd hc (hs.not_failed hread numeral)
    | taking | passing worker | closed worker => rfl
  obtain ⟨more, hmore, hnone⟩ := hs.exists_isInterleaving
  rcases storeRun_cases db.games settings.batchSize hfailure with
    ⟨hall, hstored⟩ | ⟨stored, number, hstops, hstored⟩
  · cases hend with
    | failed hc => exact absurd hc (hs.not_failed hread _)
    | refused hc hbefore hadd =>
      exact absurd (canAdd_of_storeRun (congrArg Prod.snd hstored)) hadd
    | finished hfinished =>
      obtain rfl := hnone hfinished
      rw [List.append_nil] at hmore
      rw [store, hstored]
      have htotals : s.toRun.diagnostics.totals = sourceTally tree compression sources := by
        rw [ParallelRead.toRun, hs.isSound.totals_eq hfinished, List.map_map]
        rfl
      have hcount : s.toRun.diagnostics.totals.games = s.toRun.records.length := by
        rw [htotals, ReadRun.games_sum_tally_sources hread]
        exact hmore.perm.length_eq.symm
      refine ⟨[], ?_, fun _ => ⟨rfl, ⟨_, hcount, rfl⟩, ?_⟩, ?_⟩
      · rwa [List.append_nil]
      · rw [htotals]
      · rw [List.append_nil]
        rintro ⟨r, hr, hnot⟩
        exact absurd (hall r hr) hnot
  · rw [store, hstored]
    refine ⟨more, hmore, fun hall => ?_, fun _ => ⟨stored, number, hstops, rfl⟩⟩
    exact absurd (fun r hr => hall r (List.mem_append_left _ hr)) (not_hasStorableRatings hstops)

/-- **Ingestion with several workers stores the rows of all sources, or stops at a rating.** Sources
of a pattern that hold no numeral of too many digits are ingested in whatever order their records
come. -/
theorem ingests_stores_or_stops (hpath : settings.pgnPath = some path)
    (hfound : ReadRun.findSources tree path settings.compression = .ok (compression, sources))
    (hexplicit : ∀ source ∈ sources,
      (Source.readAt tree compression source.path).ending ≠ .complete → source.explicit = false)
    (hread : ∀ source ∈ sources, (Source.readAt tree compression source.path).IsConvertible)
    {ingestion : Ingestion} (h : db.Ingests settings tree ingestion) :
    ∃ records more,
      IsInterleaving (sourceRecords tree compression sources) (records ++ more) ∧
      ((∀ r ∈ records ++ more, r.HasStorableRatings) →
        more = [] ∧ db.StoresAll records ingestion ∧
          ingestion.2 = (db.ingest settings tree).2) ∧
      ((∃ r ∈ records ++ more, ¬r.HasStorableRatings) →
        db.StopsAtBatch (max 1 settings.batchSize) records ingestion) := by
  obtain ⟨hstores, hstops⟩ := ingest_stores_or_stops db hpath hfound hexplicit hread
  cases h with
  | inTurn _ =>
    refine ⟨_, [], by rw [List.append_nil]; exact isInterleaving_flatten _, ?_⟩
    rw [List.append_nil]
    exact ⟨fun hall => ⟨rfl, (hstores hall).1, rfl⟩, hstops⟩
  | sideBySide hpath' hfound' hworkers hmany hs hend =>
    obtain rfl := Option.some.inj (hpath.symm.trans hpath')
    obtain ⟨rfl, rfl⟩ := Prod.mk.inj (Except.ok.inj (hfound.symm.trans hfound'))
    obtain ⟨more, hmore, hstored, hstopped⟩ := store_stores_or_stops hread hs hend
    refine ⟨_, more, hmore, fun hall => ?_, hstopped⟩
    obtain ⟨rfl, hstoresAll, hresult⟩ := hstored hall
    rw [List.append_nil] at hmore hall
    refine ⟨rfl, hstoresAll, ?_⟩
    rw [hresult, (hstores fun r hr => hall r (hmore.perm.mem_iff.2 hr)).2, hmore.perm.length_eq]

end Sources

/-! ## There is always a result -/

/-- The consumer has put all rows into the sink, or all before the one that it has just taken. -/
def KeepsUp (games : GamesTable) (batchSize : Int) (s : ParallelRead) : Prop :=
  s.consumer = .taking ∧ CanAdd games batchSize s.toRun.records ∨
    ∃ i, s.consumer = .passing i ∧ CanAdd games batchSize s.toRun.records.dropLast

/-- A consumer that keeps up comes to an end. -/
theorem exists_isStored {maxWorkers bufferGames : Nat} {found : List (Text × SourceReading)}
    (hworkers : 0 < maxWorkers) (games : GamesTable) (batchSize : Int) {s : ParallelRead}
    (hs : ParallelRead.Reachable maxWorkers (.start bufferGames found) s)
    (hkeeps : KeepsUp games batchSize s) :
    ∃ t, ParallelRead.Reachable maxWorkers (.start bufferGames found) t ∧
      IsStored games batchSize t := by
  -- on what is still to be done: the consumer goes on unless a row cannot be stored
  induction s using (ParallelRead.wellFounded_step maxWorkers).induction with
  | _ s ih =>
    rcases hkeeps with ⟨hc, hadd⟩ | ⟨i, hc, hadd⟩
    · by_cases hr : s.remaining = 0
      · exact ⟨s, hs, .finished ⟨hc, hr⟩ hadd⟩
      · obtain ⟨t, ht, hnext⟩ :=
          hs.isSound.exists_step hworkers (Nat.le_max_left 1 _) hc hr
        cases hnext with
        | waits hc hreceived =>
          refine ih t ht (hs.step ht) (Or.inl ⟨hc, ?_⟩)
          rwa [ParallelRead.toRun, hreceived]
        | passes hc hreceived =>
          refine ih t ht (hs.step ht) (Or.inr ⟨_, hc, ?_⟩)
          rw [ParallelRead.toRun, hreceived, List.map_append, List.map_singleton,
            List.dropLast_concat]
          exact hadd
        | fails hc hreceived =>
          refine ⟨t, hs.step ht, .failed hc ?_⟩
          rwa [ParallelRead.toRun, hreceived]
    · by_cases hlast : CanAdd games batchSize s.toRun.records
      · have hknows := hs.invariant (ParallelRead.knowsWorkers_start bufferGames found)
          ParallelRead.knowsWorkers_step
        obtain ⟨t, ht, hc, hreceived⟩ := hknows.exists_release hc maxWorkers
        refine ih t ht (hs.step ht) (Or.inl ⟨hc, ?_⟩)
        rwa [ParallelRead.toRun, hreceived]
      · exact ⟨_, hs.step (.consumer (.close hc)), .refused rfl hadd hlast⟩

/-- **An ingestion comes to a result**, however many workers there are. -/
theorem exists_ingests (db : Database) (settings : Settings) (tree : FileTree) :
    ∃ ingestion, db.Ingests settings tree ingestion := by
  by_cases hinTurn : ∀ path compression sources, settings.pgnPath = some path →
      ReadRun.findSources tree path settings.compression = .ok (compression, sources) →
      settings.maxWorkers ≤ 1 ∨ sources.length = 1
  · exact ⟨_, .inTurn hinTurn⟩
  · push Not at hinTurn
    obtain ⟨path, compression, sources, hpath, hfound, hworkers, hmany⟩ := hinTurn
    have hempty : KeepsUp db.games settings.batchSize
        (.ofSources (Source.readAt tree compression) settings.bufferGames sources) :=
      Or.inl ⟨rfl, rfl⟩
    obtain ⟨s, hs, hstored⟩ :=
      exists_isStored (Nat.zero_lt_of_lt hworkers) db.games settings.batchSize .refl hempty
    exact ⟨_, .sideBySide hpath hfound hworkers hmany hs hstored⟩

end Database

end Scoresheet
