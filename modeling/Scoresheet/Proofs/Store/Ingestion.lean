import Scoresheet.Database
import Scoresheet.Proofs.Reading.Counting
import Scoresheet.Proofs.Record.ShortNumerals
import Scoresheet.Proofs.Store.Batches

/-!
# Ingestion

Sources that can be read to their end, and whose lines have no long runs of digits, give one record
for each game. Storing them adds one row for each record in its order, unless a rating does not fit
into 64 bits: the ingestion stops at the batch with such a rating, and neither its rows nor those
behind it are stored (`Database.ingestFrom_stores_or_stops`).
-/

namespace Scoresheet

open Text Pgn

/-! ## Sources without long runs of digits -/

namespace Source

variable {tree : FileTree} {compression : Compression} {path : Text} {lines : List Line}

/-- The records of the games of a source, the first of which is numbered 1. -/
def RecordsOf (path : Text) (lines : List Line) (records : List Record) : Prop :=
  List.Forall₂ (fun numbered r => Record.ofTranscript path numbered.2 numbered.1 = .ok r)
    ((readGames lines).zipIdx 1) records

/-- **A source without long runs of digits** is read to its end, and each of its games has a
record. -/
theorem readAt_of_not_haveLongRun (hopen : openAt tree compression path = .ok ⟨lines, none⟩)
    (hshort : ¬HaveLongRun lines) :
    (readAt tree compression path).ending = .complete ∧
      RecordsOf path lines (readAt tree compression path).records := by
  have hread : readAt tree compression path = .ofLines path none 1 lines := by
    rw [Opening.readAt_eq, hopen]
    rfl
  have hconv : (SourceReading.ofLines path none 1 lines).IsConvertible :=
    SourceReading.isConvertible_ofLines (not_isOversized_of_mem_readGames hshort)
  obtain ⟨hending, hgames⟩ := SourceReading.ofLines_of_isConvertible hconv
  rw [hread]
  refine ⟨hending, ?_⟩
  unfold RecordsOf SourceReading.records
  rw [List.forall₂_map_right_iff]
  exact hgames.imp fun _ _ h => h.record

end Source

namespace ReadRun

variable {tree : FileTree} {path : Text} {option : Option Text} {compression : Compression}
  {sources : List Source}

/-- What sources add to a tally has all their games in it. -/
theorem games_sum_tally_sources
    (hread : ∀ source ∈ sources, (Source.readAt tree compression source.path).IsConvertible) :
    (sources.map fun source => (Source.readAt tree compression source.path).tally).sum.games
      = (sources.flatMap fun source =>
          (Source.readAt tree compression source.path).records).length := by
  have hopened : Source.readAt tree compression
      = readOpened compression (Source.openAt tree compression) :=
    funext (Source.Opening.readAt_eq tree compression)
  rw [hopened] at hread ⊢
  exact congrArg Tally.games (sum_tally_sources hread)

/-- Sources that can be read, or are passed over if they cannot, give their records one after
another, and what is counted for each is added up. -/
theorem ofPattern_of_findSources
    (hfound : findSources tree path option = .ok (compression, sources))
    (hexplicit : ∀ source ∈ sources,
      (Source.readAt tree compression source.path).ending ≠ .complete → source.explicit = false)
    (hread : ∀ source ∈ sources, (Source.readAt tree compression source.path).IsConvertible) :
    ∃ d : Diagnostics, ofPattern tree path option none
        = ⟨sources.flatMap fun source => (Source.readAt tree compression source.path).records, d,
          none⟩ ∧
      d.totals = (sources.map fun source =>
        (Source.readAt tree compression source.path).tally).sum := by
  rw [ofPattern, hfound]
  exact ⟨_, ofSources_eq hexplicit hread .start, zero_add _⟩

end ReadRun

namespace Database

open GamesTable

/-! ## Storing a read -/

/-- Where the rows of records stop, a rating does not fit. -/
theorem not_hasStorableRatings {size : Nat} {games stored : GamesTable} {records : List Record}
    {number : UnstorableInteger}
    (h : StopsAt size games (records.map GameRow.ofRecord) stored number) :
    ¬∀ r ∈ records, r.HasStorableRatings := by
  refine fun hall => h.not_isStorable fun row hrow => ?_
  obtain ⟨r, hr, rfl⟩ := List.mem_map.1 hrow
  exact (GameRow.isStorable_ofRecord_iff r).2 (hall r hr)

/-- Storing the records of a read stores all of them, or stops at a batch that cannot be stored. -/
theorem storeRun_cases (games : GamesTable) (batchSize : Int) {run : ReadRun}
    (hrun : run.failure = none) :
    (∀ r ∈ run.records, r.HasStorableRatings) ∧
        storeRun games batchSize run = (games.extended (run.records.map GameRow.ofRecord),
          .ok ⟨run.diagnostics.totals, run.records.length⟩) ∨
      ∃ stored number, StopsAt (max 1 batchSize.toNat) games (run.records.map GameRow.ofRecord)
          stored number ∧
        storeRun games batchSize run = (stored, .error (.storing number)) := by
  unfold storeRun
  rcases (Sink.hasBatched_start batchSize games).addAll (run.records.map GameRow.ofRecord) with
    ⟨s, hadd, hs⟩ | ⟨s, number, hadd, hstops⟩
  · rw [List.nil_append] at hs
    rw [hadd, hrun]
    dsimp only
    rcases hs.close with ⟨s', hclose, htable, hinserted, hstorable⟩ | ⟨s', number, hclose, hstops⟩
    · rw [hclose]
      refine Or.inl ⟨fun r hr => ?_, ?_⟩
      · exact (GameRow.isStorable_ofRecord_iff r).1 (hstorable _ (List.mem_map_of_mem hr))
      · dsimp only
        rw [htable, hinserted, List.length_map]
    · rw [hclose]
      exact Or.inr ⟨_, number, hstops, rfl⟩
  · rw [List.nil_append] at hstops
    rw [hadd]
    exact Or.inr ⟨_, number, hstops, rfl⟩

/-! ## Ingestion -/

/-- What an ingestion leaves and reports. -/
abbrev Ingestion := Database × Except IngestFailure IngestSummary

/-- The rows of all records are stored behind the games that were there, and all are counted. -/
def StoresAll (db : Database) (records : List Record) (ingestion : Ingestion) : Prop :=
  ∃ tally, tally.games = records.length ∧
    ingestion = ({ db with games := db.games.extended (records.map GameRow.ofRecord) },
      .ok ⟨tally, records.length⟩)

/-- The ingestion ends in a failure at a batch with a number that has no place in the table, and
only the rows of the whole batches before it are stored. -/
def StopsAtBatch (db : Database) (size : Nat) (records : List Record) (ingestion : Ingestion) :
    Prop :=
  ∃ stored number, StopsAt size db.games (records.map GameRow.ofRecord) stored number ∧
    ingestion = ({ db with games := stored }, .error (.storing number))

/-- A read that came to its end is stored as a whole, or up to a batch with a rating that does not
fit. -/
theorem storeRun_stores_or_stops (db : Database) (run : ReadRun) (hrun : run.failure = none)
    (hcount : run.diagnostics.totals.games = run.records.length) (batchSize : Int) :
    let (games, result) := storeRun db.games batchSize run
    ((∀ r ∈ run.records, r.HasStorableRatings) →
        db.StoresAll run.records ({ db with games }, result) ∧
          result = .ok ⟨run.diagnostics.totals, run.records.length⟩) ∧
      ((∃ r ∈ run.records, ¬r.HasStorableRatings) →
        db.StopsAtBatch (max 1 batchSize.toNat) run.records ({ db with games }, result)) := by
  rcases storeRun_cases db.games batchSize hrun with
    ⟨hall, hstored⟩ | ⟨stored, number, hstops, hstored⟩
  · rw [hstored]
    constructor
    · exact fun _ => ⟨⟨run.diagnostics.totals, hcount, rfl⟩, rfl⟩
    · rintro ⟨r, hr, hnot⟩
      exact absurd (hall r hr) hnot
  · rw [hstored]
    constructor
    · exact fun hall => absurd hall (not_hasStorableRatings hstops)
    · exact fun _ => ⟨stored, number, hstops, rfl⟩

/-- **Ingestion stores a row for each game, or stops at a rating.** Sources that can be read to
their end, and whose lines have no long runs of digits, are ingested whatever else they hold: each
game gives a record. No text in the row of a record holds a NUL character. If all ratings fit into
64 bits, the rows are stored in their order whatever the size of the batches is; otherwise the batch
of the first one that does not fit is lost with all that comes behind it. -/
theorem ingestFrom_stores_or_stops (db : Database) {tree : FileTree} {path : Text}
    {option : Option Text} {compression : Compression} {sources : List Source}
    {lines : Source → List Line}
    (hfound : ReadRun.findSources tree path option = .ok (compression, sources))
    (hopen : ∀ source ∈ sources,
      Source.openAt tree compression source.path = .ok ⟨lines source, none⟩)
    (hshort : ∀ source ∈ sources, ¬HaveLongRun (lines source)) :
    ∃ records : Source → List Record,
      (∀ source ∈ sources, Source.RecordsOf source.path (lines source) (records source)) ∧
      (∀ r ∈ sources.flatMap records, ∀ c, (GameRow.ofRecord r c).holdsNul = false) ∧
      ∀ batchSize : Int,
        ((∀ r ∈ sources.flatMap records, r.HasStorableRatings) →
          db.StoresAll (sources.flatMap records) (db.ingestFrom tree path option batchSize)) ∧
        ((∃ r ∈ sources.flatMap records, ¬r.HasStorableRatings) →
          db.StopsAtBatch (max 1 batchSize.toNat) (sources.flatMap records)
            (db.ingestFrom tree path option batchSize)) := by
  have hread := fun source hsource =>
    Source.readAt_of_not_haveLongRun (hopen source hsource) (hshort source hsource)
  have hconv : ∀ source ∈ sources,
      (Source.readAt tree compression source.path).IsConvertible := by
    intro source hsource n hn
    rw [(hread source hsource).1] at hn
    cases hn
  obtain ⟨d, hrun, htotals⟩ := ReadRun.ofPattern_of_findSources hfound
    (fun source hsource hne => absurd (hread source hsource).1 hne) hconv
  refine ⟨fun source => (Source.readAt tree compression source.path).records,
    fun source hsource => (hread source hsource).2, fun r _ => GameRow.holdsNul_ofRecord r,
    fun batchSize => ?_⟩
  rw [ingestFrom, hrun]
  have hcount := (congrArg Tally.games htotals).trans (ReadRun.games_sum_tally_sources hconv)
  obtain ⟨hstores, hstops⟩ := db.storeRun_stores_or_stops ⟨_, d, none⟩ rfl hcount batchSize
  exact ⟨fun hall => (hstores hall).1, hstops⟩

/-! ## A file with a large rating -/

/-- A game in which White has a rating of 2^63. -/
def largeRating : Text := "[WhiteElo \"9223372036854775808\"]\n\n1. e4 *\n".toList

/-- A working directory with one file that holds an ASCII text. -/
def treeOf (path t : Text) : FileTree :=
  FileTree.empty.add [path] (.file ⟨t.map fun c => UInt8.ofNat c.toNat, ⟨[], none⟩⟩)

theorem openAt_largeRating :
    Source.openAt (treeOf ['a'] largeRating) .plain ['a'] = .ok ⟨lines largeRating, none⟩ := rfl

theorem not_haveLongRun_largeRating : ¬HaveLongRun (lines largeRating) := by
  have hlength : (lines largeRating).all (·.length ≤ maxDigits) = true := by decide +kernel
  rintro ⟨line, hline, hlong⟩
  exact not_hasLongRun_of_length_le (of_decide_eq_true (List.all_eq_true.1 hlength line hline))
    hlong

theorem snd_ingestFrom_largeRating :
    (empty.ingestFrom (treeOf ['a'] largeRating) ['a'] none 500).2
      = .error (.storing ⟨9223372036854775808⟩) := by
  decide +kernel

theorem ingestFrom_stores_or_stops_largeRating :
    ReadRun.findSources (treeOf ['a'] largeRating) ['a'] none = .ok (.plain, [⟨['a'], true⟩]) ∧
    (∀ source ∈ [Source.mk ['a'] true],
      Source.openAt (treeOf ['a'] largeRating) .plain source.path = .ok ⟨lines largeRating, none⟩) ∧
    (∀ source ∈ [Source.mk ['a'] true], ¬HaveLongRun (lines largeRating)) ∧
    ∃ records, Source.RecordsOf ['a'] (lines largeRating) records ∧
      empty.StopsAtBatch 500 records
        (empty.ingestFrom (treeOf ['a'] largeRating) ['a'] none 500) := by
  have hfound : ReadRun.findSources (treeOf ['a'] largeRating) ['a'] none
      = .ok (.plain, [⟨['a'], true⟩]) := rfl
  have hopen : ∀ source ∈ [Source.mk ['a'] true],
      Source.openAt (treeOf ['a'] largeRating) .plain source.path
        = .ok ⟨lines largeRating, none⟩ :=
    List.forall_mem_singleton.2 openAt_largeRating
  have hshort : ∀ source ∈ [Source.mk ['a'] true], ¬HaveLongRun (lines largeRating) :=
    fun _ _ => not_haveLongRun_largeRating
  refine ⟨hfound, hopen, hshort, ?_⟩
  obtain ⟨records, hrecords, _, hcases⟩ := empty.ingestFrom_stores_or_stops hfound hopen hshort
  have hall : [Source.mk ['a'] true].flatMap records = records ⟨['a'], true⟩ := by simp
  rw [hall] at hcases
  refine ⟨records ⟨['a'], true⟩, hrecords ⟨['a'], true⟩ List.mem_cons_self, (hcases 500).2 ?_⟩
  by_contra hnone
  push Not at hnone
  obtain ⟨tally, _, hstored⟩ := (hcases 500).1 hnone
  have hresult := congrArg Prod.snd hstored
  rw [snd_ingestFrom_largeRating] at hresult
  cases hresult

/-- A file whose only game has a rating of 2^63 is not ingested: it can be read, and no line of it
has a long run of digits. -/
theorem not_ingested_largeRating :
    Source.openAt (treeOf ['a'] largeRating) .plain ['a'] = .ok ⟨lines largeRating, none⟩ ∧
    ¬HaveLongRun (lines largeRating) ∧ (readGames (lines largeRating)).length = 1 ∧
    (empty.ingestFrom (treeOf ['a'] largeRating) ['a'] none 500).1.games = [] ∧
    (empty.ingestFrom (treeOf ['a'] largeRating) ['a'] none 500).2
      = .error (.storing ⟨9223372036854775808⟩) := by
  refine ⟨openAt_largeRating, not_haveLongRun_largeRating, ?_, ?_, snd_ingestFrom_largeRating⟩
  · decide +kernel
  · decide +kernel

end Database

end Scoresheet
