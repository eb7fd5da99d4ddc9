import Mathlib.Algebra.BigOperators.Group.List.Basic
import Scoresheet.Reading.Run

/-!
# What a read counts

Tallies are added up, so what a source adds to the totals does not depend on what was counted
before: it is a sum over its games and its end (`SourceReading.tally`). Sources that are read one
after another give the records, the sum of the tallies and the warnings of each (`ofSources_eq`).
-/

namespace Scoresheet

open Text

/-! ## Sums of tallies -/

namespace Tally

instance : Zero Tally := ⟨zero⟩

instance : Add Tally := ⟨add⟩

theorem add_def (a b : Tally) : a + b = ⟨a.games + b.games, a.gamesWithErrors + b.gamesWithErrors,
    a.sourcesSkipped + b.sourcesSkipped, a.warnings + b.warnings⟩ := rfl

theorem zero_def : (0 : Tally) = ⟨0, 0, 0, 0⟩ := rfl

instance : AddCancelCommMonoid Tally where
  add_assoc a b c := by simp only [add_def, Nat.add_assoc]
  zero_add a := by simp only [add_def, zero_def, Nat.zero_add]
  add_zero a := by simp only [add_def, zero_def, Nat.add_zero]
  add_comm a b := by simp only [add_def, Nat.add_comm]
  add_left_cancel a b c h := by
    obtain ⟨_, _, _, _⟩ := b
    obtain ⟨_, _, _, _⟩ := c
    simpa only [add_def, mk.injEq, Nat.add_left_cancel_iff] using h
  nsmul := nsmulRec

end Tally

theorem Diagnostics.totals_merge (d : Diagnostics) (t : Tally) :
    (d.merge t).totals = d.totals + t := rfl

/-! ## Games and sources -/

/-- What a game adds to a tally. -/
def GameReading.tally (game : GameReading) : Tally where
  games := 1
  gamesWithErrors := if game.record.parseError.any (!·.isEmpty) then 1 else 0
  sourcesSkipped := 0
  warnings := if game.diagnostic.isSome then 1 else 0

theorem note_snd (d : Diagnostics) (t : Tally) (game : GameReading) :
    (ReadRun.note (d, t) game).2 = t + game.tally := by
  unfold ReadRun.note GameReading.tally
  rw [Tally.add_def]
  cases game.diagnostic <;> rfl

/-- A worker counts for itself; the totals stay as they are. -/
theorem totals_note (d : Diagnostics) (t : Tally) (game : GameReading) :
    (ReadRun.note (d, t) game).1.totals = d.totals := by
  unfold ReadRun.note
  cases game.diagnostic <;> rfl

theorem log_note (d : Diagnostics) (t : Tally) (game : GameReading) :
    (ReadRun.note (d, t) game).1.log = d.log ++ game.diagnostic.toList := by
  unfold ReadRun.note
  cases game.diagnostic with
  | none => exact (List.append_nil _).symm
  | some diagnostic => rfl

/-- Games are counted one after another, and what is said about them is logged in their order. -/
theorem foldl_note (games : List GameReading) (d : Diagnostics) (t : Tally) :
    games.foldl ReadRun.note (d, t)
      = (⟨d.totals, d.log ++ games.filterMap GameReading.diagnostic⟩,
          t + (games.map GameReading.tally).sum) := by
  induction games generalizing d t with
  | nil => simp
  | cons game games ih =>
    rw [List.foldl_cons, ih, note_snd, totals_note, log_note, List.map_cons, List.sum_cons,
      add_assoc, List.append_assoc, List.filterMap_cons]
    cases game.diagnostic <;> rfl

/-- What the end of a source adds to a tally: one that cannot be read is warned of. -/
def SourceEnd.tally : SourceEnd → Tally
  | unusable _ => ⟨0, 0, 1, 1⟩
  | complete | oversized _ => 0

namespace SourceReading

/-- The records of a source in their order. -/
def records (reading : SourceReading) : List Record := reading.games.map GameReading.record

/-- What reading the whole of a source adds to a tally. -/
def tally (reading : SourceReading) : Tally :=
  (reading.games.map GameReading.tally).sum + reading.ending.tally

/-- What is logged on reading the whole of a source. -/
def warnings (path : Text) (reading : SourceReading) : List Text :=
  reading.games.filterMap GameReading.diagnostic ++
    match reading.ending with
    | .unusable error => ["Skipping source '".toList ++ path ++ "': ".toList ++ error.message]
    | _ => []

/-- No numeral in the source is too long to convert. -/
def IsConvertible (reading : SourceReading) : Prop := ∀ n, reading.ending ≠ .oversized n

end SourceReading

/-! ## One source after another -/

/-- Diagnostics after reading the whole of a source. -/
def Diagnostics.after (d : Diagnostics) (path : Text) (reading : SourceReading) : Diagnostics :=
  ⟨d.totals + reading.tally, d.log ++ reading.warnings path⟩

theorem Diagnostics.after_of_complete {reading : SourceReading} (h : reading.ending = .complete)
    (d : Diagnostics) (path : Text) :
    d.after path reading
      = Diagnostics.merge ⟨d.totals, d.log ++ reading.games.filterMap GameReading.diagnostic⟩
          (reading.games.map GameReading.tally).sum := by
  unfold after SourceReading.tally SourceReading.warnings
  rw [h, SourceEnd.tally, add_zero]
  simp only [List.append_nil]
  rfl

theorem Diagnostics.after_of_unusable {reading : SourceReading} {error : SourceError}
    (h : reading.ending = .unusable error) (d : Diagnostics) (path : Text) :
    d.after path reading
      = let state := Diagnostics.sourceSkipped
          ⟨d.totals, d.log ++ reading.games.filterMap GameReading.diagnostic⟩
          (reading.games.map GameReading.tally).sum path error.message
        state.1.merge state.2 := by
  unfold after SourceReading.tally SourceReading.warnings
  rw [h]
  simp only [← List.append_assoc]
  rfl

section Sources

variable {read : Text → SourceReading} {source : Source} {sources : List Source}

/-- A source in which nothing unexpected happens, and which is passed over if it cannot be read, is
read to its end if more records are wanted than it has. -/
theorem ofSources_cons {limit : Option Nat}
    (hexplicit : (read source.path).ending ≠ .complete → source.explicit = false)
    (hread : (read source.path).IsConvertible)
    (hlimit : ∀ k ∈ limit, (read source.path).games.length < k) (d : Diagnostics) :
    ReadRun.ofSources read limit d (source :: sources)
      = (ReadRun.ofSources read (limit.map (· - (read source.path).games.length))
          (d.after source.path (read source.path)) sources).precededBy
            (read source.path).records := by
  have hwithin : ReadRun.within limit (read source.path).games = (read source.path).games := by
    cases limit with
    | none => rfl
    | some k => exact List.take_of_length_le (Nat.le_of_lt (hlimit k rfl))
  have hmore : limit.any (· ≤ (read source.path).games.length) = false := by
    cases limit with
    | none => rfl
    | some k => exact decide_eq_false (Nat.not_le_of_lt (hlimit k rfl))
  have hzero : Tally.zero + ((read source.path).games.map GameReading.tally).sum
      = ((read source.path).games.map GameReading.tally).sum := zero_add _
  simp only [ReadRun.ofSources, hwithin, hmore, foldl_note, hzero]
  cases hend : (read source.path).ending with
  | complete =>
    rw [Diagnostics.after_of_complete hend]
    rfl
  | unusable error =>
    rw [Diagnostics.after_of_unusable hend, hexplicit (by rw [hend]; simp)]
    rfl
  | oversized n => exact absurd hend (hread n)

/-- **Sources read one after another** give the records of each, the sum of what is counted for
each and the warnings of each. -/
theorem ofSources_eq (hexplicit : ∀ source ∈ sources,
      (read source.path).ending ≠ .complete → source.explicit = false)
    (hread : ∀ source ∈ sources, (read source.path).IsConvertible) (d : Diagnostics) :
    ReadRun.ofSources read none d sources
      = ⟨sources.flatMap fun source => (read source.path).records,
          ⟨d.totals + (sources.map fun source => (read source.path).tally).sum,
            d.log ++ sources.flatMap fun source => (read source.path).warnings source.path⟩,
          none⟩ := by
  induction sources generalizing d with
  | nil => simp [ReadRun.ofSources, ReadRun.ended]
  | cons source sources ih =>
    obtain ⟨hsource, hsources⟩ := List.forall_mem_cons.1 hexplicit
    obtain ⟨hfirst, hrest⟩ := List.forall_mem_cons.1 hread
    rw [ofSources_cons hsource hfirst (by simp), Option.map_none, ih hsources hrest]
    simp only [ReadRun.precededBy, Diagnostics.after, List.map_cons, List.sum_cons, add_assoc,
      List.flatMap_cons, List.append_assoc]

/-- The totals of sources read one after another are the sum of what each of them adds, and their
records follow one another. -/
theorem totals_ofSources (hexplicit : ∀ source ∈ sources, source.explicit = false)
    (hread : ∀ source ∈ sources, (read source.path).IsConvertible) (d : Diagnostics) :
    (ReadRun.ofSources read none d sources).diagnostics.totals
        = d.totals + (sources.map fun source => (read source.path).tally).sum ∧
      (ReadRun.ofSources read none d sources).records
        = sources.flatMap fun source => (read source.path).records := by
  rw [ofSources_eq (fun source hsource _ => hexplicit source hsource) hread]
  exact ⟨rfl, rfl⟩

end Sources

end Scoresheet
