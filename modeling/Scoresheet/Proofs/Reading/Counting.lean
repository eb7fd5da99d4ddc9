import Scoresheet.Proofs.Reading.SourceGames

/-!
# Counters and what they count

Reading sources one after another counts games, games with errors, sources that were skipped and
warnings. The counters are those of what came out: every record is counted once, every record that
notes an error once more, every source that could not be read to its end once, and there is one
warning for each malformed game and for each skipped source (`ReadRun.counters_match`).
-/

namespace Scoresheet

open Text Pgn

/-! ## One source -/

theorem isSome_diagnostic? (t : Transcript) (path : Text) (gameIndex : Nat) :
    (diagnostic? t path gameIndex).isSome = t.isMalformed := by
  unfold diagnostic? Transcript.isMalformed
  rcases t.error with _ | _ | _ <;> rfl

theorem Headers.ne_nil_of_mem_notes {h : Headers} {diagnostic note : Text}
    (hnote : note ∈ h.notes diagnostic) : note ≠ [] := by
  rw [notes, List.mem_append] at hnote
  rcases hnote with hnote | hnote
  · cases diagnostic with
    | nil => simp at hnote
    | cons c cs =>
      rw [List.mem_singleton.1 hnote]
      simp
  · rintro rfl
    have hprefix := isConversionError_of_mem_complaints hnote
    simp at hprefix

/-- What is said to be wrong is never an empty text. -/
theorem Record.any_parseError_of_build {h : Headers} {movetext : Text} {outcome : Option Text}
    {diagnostic : Text} {r : Record} (hr : Record.build h movetext outcome diagnostic = .ok r) :
    r.parseError.any (!·.isEmpty) = r.parseError.isSome := by
  rw [Record.parseError_of_build hr]
  split
  · rfl
  · rename_i hnotes
    cases hcs : h.notes diagnostic with
    | nil => simp [hcs] at hnotes
    | cons note notes =>
      have hmem : note ∈ h.notes diagnostic := by simp [hcs]
      have hnote : note ≠ [] := Headers.ne_nil_of_mem_notes hmem
      cases notes with
      | nil => simp [hnote]
      | cons second notes => simp [join_cons]

/-- What a game that is read adds to a tally. -/
theorem GameReading.IsOf.tally_eq {path : Text} {numbered : Transcript × Nat} {game : GameReading}
    (h : game.IsOf path numbered) :
    game.tally = ⟨1, if game.record.parseError.isSome then 1 else 0, 0,
      if numbered.1.isMalformed then 1 else 0⟩ := by
  obtain ⟨a, ha⟩ := Record.exists_build_of_ofTranscript h.record
  unfold GameReading.tally
  rw [Record.any_parseError_of_build ha, h.diagnostic, isSome_diagnostic?]

/-- What the games of a source add to a tally. -/
theorem sum_tally_games {path : Text} {numbered : List (Transcript × Nat)}
    {games : List GameReading} (h : List.Forall₂ (GameReading.IsOf path) numbered games) :
    (games.map GameReading.tally).sum
      = ⟨games.length, (games.map GameReading.record).countP (·.parseError.isSome), 0,
          (numbered.map Prod.fst).countP Transcript.isMalformed⟩ := by
  induction h with
  | nil => rfl
  | cons hgame _ ih =>
    rw [List.map_cons, List.sum_cons, ih, hgame.tally_eq, Tally.add_def, List.map_cons,
      List.map_cons, List.countP_cons, List.countP_cons, List.length_cons]
    simp only [Nat.add_comm, Nat.add_zero]

namespace Source.Opening

variable {compression : Compression} {path : Text} {opening : Source.Opening}

theorem tally_ending (h : (read compression path opening).IsConvertible) :
    (read compression path opening).ending.tally
      = if opening.isBroken then ⟨0, 0, 1, 1⟩ else 0 := by
  cases opening with
  | error error => rfl
  | ok content =>
    rw [read, (SourceReading.ofLines_of_isConvertible h).1, isBroken]
    cases content.fault <;> rfl

/-- What a source adds to a tally. -/
theorem tally_read (h : (read compression path opening).IsConvertible) :
    (read compression path opening).tally
      = ⟨(read compression path opening).records.length,
          (read compression path opening).records.countP (·.parseError.isSome),
          if opening.isBroken then 1 else 0,
          (if opening.isBroken then 1 else 0) + opening.games.countP Transcript.isMalformed⟩ := by
  have hsum := sum_tally_games (forall₂_isOf h)
  rw [List.zipIdx_map_fst] at hsum
  rw [SourceReading.tally, hsum, tally_ending h, SourceReading.records, List.length_map]
  cases opening.isBroken <;> simp [Tally.add_def, Tally.zero_def, Nat.add_comm]

end Source.Opening

/-! ## All sources -/

namespace ReadRun

variable {compression : Compression} {opened : Text → Source.Opening} {found : List Source}

/-- What is read of the source at a path. -/
abbrev readOpened (compression : Compression) (opened : Text → Source.Opening) (path : Text) :
    SourceReading := (opened path).read compression path

/-- What sources add to a tally. -/
theorem sum_tally_sources
    (hread : ∀ source ∈ found, (readOpened compression opened source.path).IsConvertible) :
    (found.map fun source => (readOpened compression opened source.path).tally).sum
      = ⟨(found.flatMap fun source =>
            (readOpened compression opened source.path).records).length,
          (found.flatMap fun source =>
            (readOpened compression opened source.path).records).countP (·.parseError.isSome),
          found.countP fun source => (opened source.path).isBroken,
          found.countP (fun source => (opened source.path).isBroken)
            + (found.flatMap fun source => (opened source.path).games).countP
                Transcript.isMalformed⟩ := by
  induction found with
  | nil => rfl
  | cons source found ih =>
    obtain ⟨hfirst, hrest⟩ := List.forall_mem_cons.1 hread
    rw [List.map_cons, List.sum_cons, ih hrest, Source.Opening.tally_read hfirst, Tally.add_def]
    simp only [List.flatMap_cons, List.length_append, List.countP_append, List.countP_cons,
      Tally.mk.injEq, true_and]
    omega

theorem games_sum_tally (games : List GameReading) :
    (games.map GameReading.tally).sum.games = games.length := by
  induction games with
  | nil => rfl
  | cons game games ih =>
    rw [List.map_cons, List.sum_cons, Tally.add_def, List.length_cons, ← ih, Nat.add_comm]
    rfl

/-- A reader who wants no more records than a source has takes them and looks no further. -/
theorem ofSources_of_le {read : Text → SourceReading} {source : Source} {k : Nat}
    (hk : k ≤ (read source.path).games.length) (sources : List Source) (d : Diagnostics) :
    ofSources read (some k) d (source :: sources)
      = (ended (Diagnostics.merge
          ⟨d.totals, d.log ++ ((read source.path).games.take k).filterMap GameReading.diagnostic⟩
          (((read source.path).games.take k).map GameReading.tally).sum) none).precededBy
            ((read source.path).records.take k) := by
  have hlength : ((read source.path).games.take k).length = k := List.length_take_of_le hk
  have hzero : Tally.zero + (((read source.path).games.take k).map GameReading.tally).sum
      = (((read source.path).games.take k).map GameReading.tally).sum := zero_add _
  have hstop : (some k).any (· ≤ k) = true := decide_eq_true (Nat.le_refl k)
  have hrecords : (read source.path).records.take k
      = ((read source.path).games.take k).map GameReading.record := List.map_take.symm
  simp only [ofSources, within, hlength, hstop, if_true, foldl_note, hzero, hrecords]

/-- **A reader who stops after some records** has been given the first ones, and as many games
are counted. -/
theorem ofSources_some {read : Text → SourceReading} {sources : List Source}
    (hexplicit : ∀ source ∈ sources, source.explicit = false)
    (hread : ∀ source ∈ sources, (read source.path).IsConvertible) {k : Nat}
    (hk : k ≤ (sources.flatMap fun source => (read source.path).records).length)
    (d : Diagnostics) :
    (ofSources read (some k) d sources).records
        = (sources.flatMap fun source => (read source.path).records).take k ∧
      (ofSources read (some k) d sources).diagnostics.totals.games = d.totals.games + k := by
  induction sources generalizing k d with
  | nil =>
    obtain rfl : k = 0 := by simpa using hk
    exact ⟨rfl, rfl⟩
  | cons source sources ih =>
    obtain ⟨hsource, hsources⟩ := List.forall_mem_cons.1 hexplicit
    obtain ⟨hfirst, hrest⟩ := List.forall_mem_cons.1 hread
    have hlength : (read source.path).records.length = (read source.path).games.length :=
      List.length_map _
    rw [List.flatMap_cons, List.length_append, hlength] at hk
    rw [List.flatMap_cons]
    rcases Nat.lt_or_ge (read source.path).games.length k with hlt | hle
    · -- the source is read to its end, and what is still wanted comes from the next ones
      obtain ⟨hrecords, hgames⟩ := ih hsources hrest
        (k := k - (read source.path).games.length) (by omega)
        (d.after source.path (read source.path))
      rw [ofSources_cons (fun _ => hsource) hfirst (by simpa using hlt), Option.map_some]
      refine ⟨?_, ?_⟩
      · rw [List.take_append, List.take_of_length_le (by omega), hlength, ← hrecords]
        rfl
      · have htally : (read source.path).tally.games = (read source.path).games.length := by
          rw [SourceReading.tally, Tally.add_def, games_sum_tally]
          cases (read source.path).ending <;> rfl
        have hafter : (d.after source.path (read source.path)).totals.games
            = d.totals.games + (read source.path).games.length := by
          rw [← htally]
          rfl
        refine hgames.trans ?_
        omega
    · rw [ofSources_of_le hle]
      refine ⟨?_, ?_⟩
      · rw [List.take_append_of_le_length (by omega)]
        exact List.append_nil _
      · show d.totals.games + (((read source.path).games.take k).map GameReading.tally).sum.games
          = _
        rw [games_sum_tally, List.length_take_of_le hle]

/-- The counters and warnings of a read are those of the records and sources. -/
structure IsAccounted (compression : Compression) (opened : Text → Source.Opening)
    (found : List Source) (run : ReadRun) : Prop where
  failure : run.failure = none
  games : run.diagnostics.totals.games = run.records.length
  gamesWithErrors :
    run.diagnostics.totals.gamesWithErrors = run.records.countP (·.parseError.isSome)
  sourcesSkipped :
    run.diagnostics.totals.sourcesSkipped = found.countP fun source => (opened source.path).isBroken
  /-- There is a warning for each source that was skipped and for each malformed game. -/
  warnings : run.diagnostics.totals.warnings = run.diagnostics.totals.sourcesSkipped
    + (found.flatMap fun source => (opened source.path).games).countP Transcript.isMalformed
  records : run.records
    = found.flatMap fun source => (readOpened compression opened source.path).records
  log : run.diagnostics.log
    = found.flatMap fun source =>
        (readOpened compression opened source.path).warnings source.path

/-- **Counters match what came out.** Sources that a pattern has found, whatever they hold and
wherever they break off, are read to exhaustion if no game has a numeral of too many digits. The
counters are those of the records and of the sources that break off; the records are those that
each source gives when it is read alone, and each game has the number of its place in its source.
A reader who stops after some records has counted as many games. -/
theorem counters_match (hfound : ∀ source ∈ found, source.explicit = false)
    (hread : ∀ source ∈ found, (readOpened compression opened source.path).IsConvertible) :
    (ofSources (readOpened compression opened) none .start found).IsAccounted
        compression opened found ∧
    (∀ source ∈ found, List.Forall₂ (GameReading.IsOf source.path)
      ((opened source.path).games.zipIdx 1)
      (readOpened compression opened source.path).games) ∧
    ∀ k ≤ (ofSources (readOpened compression opened) none .start found).records.length,
      (ofSources (readOpened compression opened) (some k) .start found).records
          = (ofSources (readOpened compression opened) none .start found).records.take k ∧
        (ofSources (readOpened compression opened) (some k) .start found).diagnostics.totals.games
          = k := by
  have hall := ofSources_eq (fun source hsource _ => hfound source hsource) hread .start
  rw [sum_tally_sources hread] at hall
  refine ⟨?_, fun source hsource => Source.Opening.forall₂_isOf (hread source hsource), ?_⟩
  · rw [hall]
    constructor
    case failure => rfl
    case games => exact Nat.zero_add _
    case gamesWithErrors => exact Nat.zero_add _
    case sourcesSkipped => exact Nat.zero_add _
    case warnings => exact (Nat.add_assoc 0 _ _).symm
    case records => rfl
    case log => rfl
  · intro k hk
    rw [hall] at hk ⊢
    obtain ⟨hrecords, hgames⟩ := ofSources_some hfound hread hk .start
    exact ⟨hrecords, hgames.trans (Nat.zero_add k)⟩

/-- What opening gives where the file `a` holds a game and no other file is compressed. -/
def openOnlyA : Text → Source.Opening
  | ['a'] => .ok ⟨lines (ratedGame 4).toText, none⟩
  | path => .error (.notPacked path)

theorem counters_match_openOnlyA :
    (∀ source ∈ [Source.mk ['a'] false, ⟨['b'], false⟩], source.explicit = false) ∧
    (∀ source ∈ [Source.mk ['a'] false, ⟨['b'], false⟩],
      (readOpened .zstd openOnlyA source.path).IsConvertible) ∧
    ∃ run, ofSources (readOpened .zstd openOnlyA) none .start
        [⟨['a'], false⟩, ⟨['b'], false⟩] = run ∧
      run.records.length = 1 ∧ run.diagnostics.totals.games = 1 ∧
      run.diagnostics.totals.sourcesSkipped = 1 ∧ run.diagnostics.totals.warnings = 1 := by
  have hgames : readGames (lines (ratedGame 4).toText) = [⟨(ratedGame 4).events, none⟩] :=
    (ratedGame 4).readGames_toText
  have hfound : ∀ source ∈ [Source.mk ['a'] false, ⟨['b'], false⟩], source.explicit = false := by
    decide
  have hread : ∀ source ∈ [Source.mk ['a'] false, ⟨['b'], false⟩],
      (readOpened .zstd openOnlyA source.path).IsConvertible := by
    intro source hsource
    rcases List.mem_cons.1 hsource with rfl | hsource
    · refine SourceReading.isConvertible_ofLines fun t ht => ?_
      have h := isGameText_ratedGame 4
      rw [h.readGames_eq, List.mem_singleton] at ht
      rw [ht, isOversized_ratedGame]
      exact ⟨h.not_isOversized_first, by decide⟩
    · rw [List.mem_singleton.1 hsource]
      intro n hn
      cases hn
  obtain ⟨hcounts, hnumbered, _⟩ := counters_match hfound hread
  have hopened : (openOnlyA ['a']).games = [⟨(ratedGame 4).events, none⟩] := hgames
  have hlength : (readOpened .zstd openOnlyA ['a']).games.length = 1 := by
    rw [← (hnumbered ⟨['a'], false⟩ List.mem_cons_self).length_eq, List.length_zipIdx, hopened]
    rfl
  have hrecords : (ofSources (readOpened .zstd openOnlyA) none .start
      [⟨['a'], false⟩, ⟨['b'], false⟩]).records.length = 1 := by
    rw [hcounts.records, List.flatMap_cons, List.length_append, SourceReading.records,
      List.length_map, hlength]
    rfl
  refine ⟨hfound, hread, _, rfl, hrecords, hcounts.games.trans hrecords, hcounts.sourcesSkipped, ?_⟩
  rw [hcounts.warnings, hcounts.sourcesSkipped, List.flatMap_cons, hopened]
  rfl

end ReadRun

end Scoresheet
