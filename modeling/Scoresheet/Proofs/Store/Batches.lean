import Scoresheet.Proofs.Store.Rows

/-!
# Storing rows in batches

A sink that has taken rows has stored the first of them, in their order, and holds the others back
(`Sink.HasTaken`), whatever the database refuses. If rows are only added to a table of games, whole
batches are stored (`Sink.HasBatched`). One row more keeps it so, or the batch that the row
completes has a number without a place: then that batch is lost and the whole batches before it stay
(`GamesTable.StopsAt`). So storing rows one after another and leaving the sink stores all of them,
or stops at such a batch (`Sink.HasBatched.addAll`, `Sink.HasBatched.close`).
-/

namespace Scoresheet

variable {ε : Type}

/-- The database looks at one row at a time. -/
def Refusal.IsRowwise (refusal? : Refusal ε) (p : GameRow → Prop) : Prop :=
  ∀ table rows, refusal? table rows = none ↔ ∀ row ∈ rows, p row

namespace GamesTable

variable {rows : List GameRow}

/-! ## Insertion -/

theorem unstorable?_eq_none_iff : unstorable? rows = none ↔ ∀ row ∈ rows, row.IsStorable := by
  simp [unstorable?, GameRow.IsStorable, Column.mem_all]

theorem isRowwise_refusesNumbers : refusesNumbers.IsRowwise GameRow.IsStorable :=
  fun _ _ => unstorable?_eq_none_iff

theorem unstorable?_append_of_some {number : UnstorableInteger} (h : unstorable? rows = some number)
    (more : List GameRow) : unstorable? (rows ++ more) = some number := by
  unfold unstorable? at h ⊢
  rw [List.findSome?_append, h, Option.some_or]

@[simp]
theorem length_numbered (count : Nat) (rows : List GameRow) :
    (numbered count rows).length = rows.length := by
  induction rows generalizing count with
  | nil => rfl
  | cons row rows ih => rw [numbered, List.length_cons, ih, List.length_cons]

theorem numbered_append (count : Nat) (rows more : List GameRow) :
    numbered count (rows ++ more) = numbered count rows ++ numbered (count + rows.length) more := by
  induction rows generalizing count with
  | nil => rfl
  | cons row rows ih =>
    rw [List.cons_append, numbered, ih, numbered, List.length_cons, List.cons_append,
      Nat.add_right_comm, Nat.add_assoc]

/-- A table with rows behind it. -/
def extended (table : GamesTable) (rows : List GameRow) : GamesTable :=
  table ++ numbered table.length rows

@[simp]
theorem extended_nil (table : GamesTable) : table.extended [] = table := List.append_nil _

/-- Rows that are stored one after another are numbered as if they had been stored together. -/
theorem extended_append (table : GamesTable) (rows more : List GameRow) :
    table.extended (rows ++ more) = (table.extended rows).extended more := by
  unfold extended
  rw [numbered_append, List.length_append, length_numbered, List.append_assoc]

theorem insert_of_none {refusal? : Refusal ε} {table : GamesTable}
    (h : refusal? table rows = none) : table.insert refusal? rows = .ok (table.extended rows) := by
  rw [insert, h]
  rfl

theorem insert_of_some {refusal? : Refusal ε} {table : GamesTable} {error : ε}
    (h : refusal? table rows = some error) : table.insert refusal? rows = .error error := by
  rw [insert, h]

/-- Of rows that go behind a table in batches, one batch has a number without a place, the first of
its numbers of this kind: the whole batches before it are stored, and nothing else. -/
def StopsAt (size : Nat) (table : GamesTable) (rows : List GameRow) (stored : GamesTable)
    (number : UnstorableInteger) : Prop :=
  ∃ k, size ∣ k ∧ stored = table.extended (rows.take k) ∧ unstorable? (rows.take k) = none ∧
    unstorable? ((rows.drop k).take size) = some number

theorem StopsAt.append {size : Nat} {table stored : GamesTable} {number : UnstorableInteger}
    (h : StopsAt size table rows stored number) (more : List GameRow) :
    StopsAt size table (rows ++ more) stored number := by
  obtain ⟨k, hdvd, hstored, hbefore, hnumber⟩ := h
  have hk : k ≤ rows.length := by
    rcases Nat.lt_or_ge rows.length k with hlt | hle
    · rw [List.drop_of_length_le (Nat.le_of_lt hlt)] at hnumber
      simp [unstorable?] at hnumber
    · exact hle
  refine ⟨k, hdvd, ?_, ?_, ?_⟩
  · rwa [List.take_append_of_le_length hk]
  · rwa [List.take_append_of_le_length hk]
  · rw [List.drop_append_of_le_length hk, List.take_append]
    exact unstorable?_append_of_some hnumber _

/-- The row with the number is among the rows. -/
theorem StopsAt.not_isStorable {size : Nat} {table stored : GamesTable} {number : UnstorableInteger}
    (h : StopsAt size table rows stored number) : ¬∀ row ∈ rows, row.IsStorable := by
  intro hall
  obtain ⟨k, _, _, _, hnumber⟩ := h
  have hbatch : unstorable? ((rows.drop k).take size) = none :=
    unstorable?_eq_none_iff.2 fun row hrow =>
      hall row (List.mem_of_mem_drop (List.mem_of_mem_take hrow))
  rw [hbatch] at hnumber
  cases hnumber

end GamesTable

namespace Sink

open GamesTable

variable {size : Nat} {table : GamesTable} {rows : List GameRow}

/-! ## What a sink has taken -/

section HasTaken

variable {s : Sink ε}

/-- The sink has taken rows: the first of them are stored behind a table, the others wait. -/
structure HasTaken (table : GamesTable) (rows : List GameRow) (s : Sink ε) : Prop where
  table : s.table = table.extended (rows.take s.inserted)
  pending : s.pending = rows.drop s.inserted
  inserted_le : s.inserted ≤ rows.length
  /-- What is stored has been looked at. -/
  accepted : ∀ p, s.refusal?.IsRowwise p → ∀ row ∈ rows.take s.inserted, p row

/-- The size of the batches and the database stay the same. -/
structure KeepsSettings (s s' : Sink ε) : Prop where
  batchSize : s'.batchSize = s.batchSize
  refusal? : s'.refusal? = s.refusal?

theorem hasTaken_startWith (refusal? : Refusal ε) (batchSize : Int) (table : GamesTable) :
    (startWith refusal? batchSize table).HasTaken table [] where
  table := (extended_nil table).symm
  pending := rfl
  inserted_le := Nat.le_refl 0
  accepted := fun _ _ => List.forall_mem_nil _

namespace HasTaken

theorem length_pending (h : s.HasTaken table rows) :
    s.inserted + s.pending.length = rows.length := by
  have hle := h.inserted_le
  rw [h.pending, List.length_drop]
  omega

theorem take_append_pending (h : s.HasTaken table rows) :
    rows.take s.inserted ++ s.pending = rows := by
  rw [h.pending, List.take_append_drop]

/-- A row that is put to the others. -/
theorem push (h : s.HasTaken table rows) (row : GameRow) :
    HasTaken table (rows ++ [row]) { s with pending := s.pending ++ [row] } where
  table := by
    rw [List.take_append_of_le_length h.inserted_le]
    exact h.table
  pending := by
    rw [List.drop_append_of_le_length h.inserted_le]
    exact congrArg (· ++ [row]) h.pending
  inserted_le := by
    rw [List.length_append]
    exact Nat.le_add_right_of_le h.inserted_le
  accepted := by
    rw [List.take_append_of_le_length h.inserted_le]
    exact h.accepted

/-- All that waits is stored. -/
theorem insertPending (h : s.HasTaken table rows) (hnone : s.refusal? s.table s.pending = none) :
    HasTaken table rows { s with
      pending := [], inserted := s.inserted + s.pending.length,
      table := s.table.extended s.pending } := by
  have hlength := h.length_pending
  constructor
  case table =>
    show s.table.extended s.pending = table.extended (rows.take (s.inserted + s.pending.length))
    rw [hlength, List.take_length, h.table, ← extended_append, h.take_append_pending]
  case pending =>
    show [] = rows.drop (s.inserted + s.pending.length)
    rw [hlength, List.drop_length]
  case inserted_le => exact Nat.le_of_eq hlength
  case accepted =>
    intro p hp
    show ∀ row ∈ rows.take (s.inserted + s.pending.length), p row
    rw [hlength, List.take_length, ← h.take_append_pending, List.forall_mem_append]
    exact ⟨h.accepted p hp, (hp s.table s.pending).1 hnone⟩

/-- **Flushing** stores all that waits, or loses it if the database refuses it. -/
theorem flush (h : s.HasTaken table rows) :
    (∃ s' : Sink ε, s.flush = (s', .ok s.pending.length) ∧ s.KeepsSettings s' ∧
        s'.inserted = rows.length ∧ s'.pending = [] ∧ s'.HasTaken table rows) ∨
      ∃ error, s.pending ≠ [] ∧ s.refusal? s.table s.pending = some error ∧
        s.flush = ({ s with pending := [] }, .error error) := by
  have hlength := h.length_pending
  unfold Sink.flush
  by_cases hpending : s.pending = []
  · rw [hpending, List.length_nil] at hlength
    rw [if_pos (List.isEmpty_iff.2 hpending), hpending]
    exact Or.inl ⟨s, rfl, ⟨rfl, rfl⟩, hlength, hpending, h⟩
  · rw [if_neg (mt List.isEmpty_iff.1 hpending)]
    cases hrefused : s.refusal? s.table s.pending with
    | none =>
      rw [insert_of_none hrefused]
      exact Or.inl ⟨_, rfl, ⟨rfl, rfl⟩, hlength, rfl, h.insertPending hrefused⟩
    | some error =>
      rw [insert_of_some hrefused]
      exact Or.inr ⟨error, hpending, rfl, rfl⟩

/-- **One row more** waits with the others, or completes a batch that is flushed. -/
theorem add (h : s.HasTaken table rows) (hlt : s.pending.length < s.batchSize) (row : GameRow) :
    (∃ s', s.add row = (s', .ok ()) ∧ s'.HasTaken table (rows ++ [row]) ∧
        s.KeepsSettings s' ∧ s'.pending.length < s.batchSize ∧
        (s'.inserted = s.inserted ∨ s'.inserted = s.inserted + s.batchSize)) ∨
      ∃ error, s.refusal? s.table (s.pending ++ [row]) = some error ∧
        (s.pending ++ [row]).length = s.batchSize ∧
        s.add row = ({ s with pending := [] }, .error error) := by
  have hpush := h.push row
  have hlength : (s.pending ++ [row]).length = s.pending.length + 1 := List.length_append
  unfold Sink.add
  dsimp only
  by_cases hfull : s.batchSize ≤ (s.pending ++ [row]).length
  · rw [if_pos hfull]
    have hexact : (s.pending ++ [row]).length = s.batchSize := by omega
    rcases hpush.flush with ⟨s', hflush, hsettings, hinserted, hpending, htaken⟩ |
      ⟨error, _, hrefused, hflush⟩
    · rw [hflush]
      refine Or.inl ⟨s', rfl, htaken, ⟨hsettings.batchSize, hsettings.refusal?⟩, ?_, Or.inr ?_⟩
      · rw [hpending]
        exact Nat.lt_of_le_of_lt (Nat.zero_le _) hlt
      · have hall := hpush.length_pending
        rw [hinserted, ← hall, hexact]
    · rw [hflush]
      exact Or.inr ⟨error, hrefused, hexact, rfl⟩
  · rw [if_neg hfull]
    exact Or.inl ⟨_, rfl, hpush, ⟨rfl, rfl⟩, Nat.lt_of_not_le hfull, Or.inl rfl⟩

/-- **Leaving the sink** stores all that waits, or loses it. -/
theorem close (h : s.HasTaken table rows) :
    (∃ s', s.close false = (s', .ok ()) ∧ s'.pending = [] ∧ s'.inserted = rows.length ∧
        s'.table = table.extended rows ∧ ∀ p, s.refusal?.IsRowwise p → ∀ row ∈ rows, p row) ∨
      ∃ error, s.pending ≠ [] ∧ s.refusal? s.table s.pending = some error ∧
        s.close false = ({ s with pending := [] }, .error error) := by
  rw [Sink.close, if_neg Bool.false_ne_true]
  rcases h.flush with ⟨s', hflush, hsettings, hinserted, hpending, htaken⟩ |
    ⟨error, hne, hrefused, hflush⟩
  · have htable := htaken.table
    have haccepted := htaken.accepted
    rw [hinserted, List.take_length] at htable haccepted
    rw [hsettings.refusal?] at haccepted
    rw [hflush]
    exact Or.inl ⟨s', rfl, hpending, hinserted, htable, haccepted⟩
  · rw [hflush]
    exact Or.inr ⟨error, hne, hrefused, rfl⟩

end HasTaken

end HasTaken

/-! ## Whole batches -/

variable {s : Sink}

/-- If what waits is one batch at most, a number without a place among what waits is one of the next
batch. -/
theorem HasTaken.stopsAt (h : s.HasTaken table rows) (hrefusal : s.refusal? = refusesNumbers)
    (hdvd : size ∣ s.inserted) (hlength : s.pending.length ≤ size) {number : UnstorableInteger}
    (hnumber : s.refusal? s.table s.pending = some number) :
    StopsAt size table rows s.table number := by
  have hstorable := h.accepted GameRow.IsStorable (hrefusal ▸ isRowwise_refusesNumbers)
  refine ⟨s.inserted, hdvd, h.table, unstorable?_eq_none_iff.2 hstorable, ?_⟩
  rw [← h.pending, List.take_of_length_le hlength]
  rwa [hrefusal] at hnumber

/-- The sink has taken rows for a table of games and stored whole batches of them; what waits fills
no batch. -/
structure HasBatched (size : Nat) (table : GamesTable) (rows : List GameRow) (s : Sink) : Prop
    extends s.HasTaken table rows where
  batchSize : s.batchSize = size
  refusal? : s.refusal? = refusesNumbers
  dvd_inserted : size ∣ s.inserted
  length_pending_lt : s.pending.length < size

theorem hasBatched_start (batchSize : Int) (table : GamesTable) :
    (start batchSize table).HasBatched (max 1 batchSize.toNat) table [] where
  toHasTaken := hasTaken_startWith refusesNumbers batchSize table
  batchSize := rfl
  refusal? := rfl
  dvd_inserted := Nat.dvd_zero _
  length_pending_lt := Nat.lt_of_lt_of_le Nat.zero_lt_one (Nat.le_max_left 1 _)

namespace HasBatched

/-- **One row more**: whole batches stay stored, or the batch that the row completes is lost. -/
theorem add (h : s.HasBatched size table rows) (row : GameRow) :
    (∃ s', s.add row = (s', .ok ()) ∧ s'.HasBatched size table (rows ++ [row])) ∨
      ∃ s' number, s.add row = (s', .error number) ∧
        StopsAt size table (rows ++ [row]) s'.table number := by
  have hsize := h.batchSize
  have hlt := h.length_pending_lt
  rw [← hsize] at hlt
  rcases h.toHasTaken.add hlt row with ⟨s', hadd, htaken, hsettings, hpending, hinserted⟩ |
    ⟨number, hnumber, hfull, hadd⟩
  · refine Or.inl ⟨s', hadd, htaken, hsettings.batchSize.trans hsize,
      hsettings.refusal?.trans h.refusal?, ?_, hsize ▸ hpending⟩
    rcases hinserted with hsame | hmore
    · exact hsame ▸ h.dvd_inserted
    · rw [hmore, hsize]
      exact Nat.dvd_add h.dvd_inserted (Nat.dvd_refl size)
  · exact Or.inr ⟨_, number, hadd, (h.toHasTaken.push row).stopsAt h.refusal? h.dvd_inserted
      (Nat.le_of_eq (hfull.trans hsize)) hnumber⟩

/-- **Rows one after another** are stored batch by batch, up to a batch that cannot be stored. -/
theorem addAll (h : s.HasBatched size table rows) (more : List GameRow) :
    (∃ s', s.addAll more = (s', .ok ()) ∧ s'.HasBatched size table (rows ++ more)) ∨
      ∃ s' number, s.addAll more = (s', .error number) ∧
        StopsAt size table (rows ++ more) s'.table number := by
  induction more generalizing s rows with
  | nil => exact Or.inl ⟨s, rfl, by rwa [List.append_nil]⟩
  | cons row more ih =>
    have happend : rows ++ row :: more = (rows ++ [row]) ++ more := by simp
    rw [happend]
    rcases h.add row with ⟨s', hadd, hs'⟩ | ⟨s', number, hadd, hstops⟩
    · rw [Sink.addAll, hadd]
      exact ih hs'
    · rw [Sink.addAll, hadd]
      exact Or.inr ⟨s', number, rfl, hstops.append more⟩

/-- **Leaving the sink** stores what fills no batch. -/
theorem close (h : s.HasBatched size table rows) :
    (∃ s', s.close false = (s', .ok ()) ∧ s'.table = table.extended rows ∧
        s'.inserted = rows.length ∧ ∀ row ∈ rows, row.IsStorable) ∨
      ∃ s' number, s.close false = (s', .error number) ∧
        StopsAt size table rows s'.table number := by
  rcases h.toHasTaken.close with ⟨s', hclose, _, hinserted, htable, haccepted⟩ |
    ⟨number, _, hnumber, hclose⟩
  · exact Or.inl ⟨s', hclose, htable, hinserted,
      haccepted GameRow.IsStorable (h.refusal? ▸ isRowwise_refusesNumbers)⟩
  · exact Or.inr ⟨_, number, hclose, h.toHasTaken.stopsAt h.refusal? h.dvd_inserted
      (Nat.le_of_lt h.length_pending_lt) hnumber⟩

end HasBatched

end Sink

end Scoresheet
