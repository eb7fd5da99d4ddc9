import Scoresheet.Proofs.Store.Batches

/-!
# Runs of a sink

Records are added to a sink, and the sink is flushed now and then. Each operation keeps the rows in
their order: the first of them are stored, the others wait, and they fill no batch
(`Sink.IsInOrder.perform`). An operation whose insertion fails, for whatever reason, changes neither
the table nor the count. So whatever is done, the table holds the rows of the first records that
were added, as many as are counted, and leaving the sink stores the rest (`Sink.run_keeps_order`).
-/

namespace Scoresheet

namespace Sink

open GamesTable

variable {ε : Type}

/-! ## Operations -/

/-- What can be done with a sink before it is left. -/
inductive Operation
  | add (record : Record)
  | flush

/-- The records that operations add. -/
def addedRecords (ops : List Operation) : List Record :=
  ops.filterMap fun
    | .add record => some record
    | .flush => none

/-- The rows of the records that operations add. -/
def addedRows (ops : List Operation) : List GameRow := (addedRecords ops).map GameRow.ofRecord

/-- Does one operation. -/
def perform (s : Sink ε) : Operation → Sink ε × Except ε Unit
  | .add record => s.add (GameRow.ofRecord record)
  | .flush => (s.flush.1, s.flush.2.map fun _ => ())

/-- Does operations one after another, up to the first that leads to a failure. -/
def performAll (s : Sink ε) : List Operation → Sink ε × Except ε Unit
  | [] => (s, .ok ())
  | op :: ops => match s.perform op with
    | (s, .ok ()) => s.performAll ops
    | (s, .error error) => (s, .error error)

theorem addedRows_append (ops more : List Operation) :
    addedRows (ops ++ more) = addedRows ops ++ addedRows more := by
  rw [addedRows, addedRecords, List.filterMap_append, List.map_append]
  rfl

theorem addedRows_cons (op : Operation) (ops : List Operation) :
    addedRows (op :: ops) = addedRows [op] ++ addedRows ops := addedRows_append [op] ops

theorem isStorable_addedRows_iff (ops : List Operation) :
    (∀ row ∈ addedRows ops, row.IsStorable) ↔
      ∀ record ∈ addedRecords ops, record.HasStorableRatings := by
  simp only [addedRows, List.forall_mem_map, GameRow.isStorable_ofRecord_iff]

/-! ## What operations keep -/

variable {refusal? : Refusal ε} {size : Nat} {table : GamesTable} {rows : List GameRow}
  {s : Sink ε} {error : ε}

/-- The sink has taken rows, in whatever batches, and what waits fills no batch. -/
structure IsInOrder (refusal? : Refusal ε) (size : Nat) (table : GamesTable) (rows : List GameRow)
    (s : Sink ε) : Prop extends s.HasTaken table rows where
  batchSize : s.batchSize = size
  refusal?_eq : s.refusal? = refusal?
  length_pending_lt : s.pending.length < size

/-- The table holds the first of some rows, as many as are counted. -/
structure HasStored (table : GamesTable) (rows : List GameRow) (s : Sink ε) : Prop where
  table : s.table = table.extended (rows.take s.inserted)
  inserted_le : s.inserted ≤ rows.length

/-- The database refuses some of the rows, the next behind those that are stored. -/
def IsRefused (refusal? : Refusal ε) (rows : List GameRow) (s : Sink ε) (error : ε) : Prop :=
  ∃ batch ≠ [], batch <+: rows.drop s.inserted ∧ refusal? s.table batch = some error

theorem HasTaken.hasStored (h : s.HasTaken table rows) : s.HasStored table rows :=
  ⟨h.table, h.inserted_le⟩

theorem HasStored.append (h : s.HasStored table rows) (more : List GameRow) :
    s.HasStored table (rows ++ more) where
  table := by
    rw [List.take_append_of_le_length h.inserted_le]
    exact h.table
  inserted_le := by
    rw [List.length_append]
    exact Nat.le_add_right_of_le h.inserted_le

theorem IsRefused.append (h : IsRefused refusal? rows s error) (more : List GameRow) :
    IsRefused refusal? (rows ++ more) s error := by
  obtain ⟨batch, hne, hbatch, hrefused⟩ := h
  refine ⟨batch, hne, hbatch.trans ?_, hrefused⟩
  rw [List.drop_append]
  exact List.prefix_append _ _

/-- If the database looks at one row at a time, it does not accept all of the rows. -/
theorem IsRefused.not_forall {p : GameRow → Prop} (h : IsRefused refusal? rows s error)
    (hp : refusal?.IsRowwise p) : ¬∀ row ∈ rows, p row := by
  obtain ⟨batch, _, hbatch, hrefused⟩ := h
  intro hall
  have hnone := (hp s.table batch).2 fun row hrow =>
    hall row (List.mem_of_mem_drop (hbatch.subset hrow))
  rw [hnone] at hrefused
  cases hrefused

theorem HasTaken.isRefused_pending (h : s.HasTaken table rows) (hne : s.pending ≠ [])
    (hrefused : s.refusal? s.table s.pending = some error) :
    IsRefused s.refusal? rows s error :=
  ⟨s.pending, hne, h.pending ▸ List.prefix_rfl, hrefused⟩

theorem isInOrder_startWith (refusal? : Refusal ε) (batchSize : Int) (table : GamesTable) :
    (startWith refusal? batchSize table).IsInOrder refusal? (max 1 batchSize.toNat) table [] where
  toHasTaken := hasTaken_startWith refusal? batchSize table
  batchSize := rfl
  refusal?_eq := rfl
  length_pending_lt := Nat.lt_of_lt_of_le Nat.zero_lt_one (Nat.le_max_left 1 _)

/-- **One operation** keeps the rows in order, or fails and loses what waits and nothing else. -/
theorem IsInOrder.perform (h : s.IsInOrder refusal? size table rows) (op : Operation) :
    (∃ s', s.perform op = (s', .ok ()) ∧
        s'.IsInOrder refusal? size table (rows ++ addedRows [op])) ∨
      ∃ error, s.perform op = ({ s with pending := [] }, .error error) ∧
        IsRefused refusal? (rows ++ addedRows [op]) s error := by
  have hsize := h.batchSize
  have hrefusal := h.refusal?_eq
  have hlt := h.length_pending_lt
  cases op with
  | add record =>
    show (∃ s', s.add (GameRow.ofRecord record) = _ ∧ _) ∨ _
    rw [← hsize] at hlt
    rcases h.toHasTaken.add hlt (GameRow.ofRecord record) with
      ⟨s', hadd, htaken, hsettings, hpending, _⟩ | ⟨error, hrefused, _, hadd⟩
    · exact Or.inl ⟨s', hadd, htaken, hsettings.batchSize.trans hsize,
        hsettings.refusal?.trans hrefusal, hsize ▸ hpending⟩
    · refine Or.inr ⟨error, hadd, ?_⟩
      rw [hrefusal] at hrefused
      exact ⟨_, by simp, (h.toHasTaken.push _).pending ▸ List.prefix_rfl, hrefused⟩
  | flush =>
    have hrows : rows ++ addedRows [.flush] = rows := List.append_nil rows
    rw [hrows, Sink.perform]
    rcases h.toHasTaken.flush with ⟨s', hflush, hsettings, _, hpending, htaken⟩ |
      ⟨error, hne, hrefused, hflush⟩
    · rw [hflush]
      refine Or.inl ⟨s', rfl, htaken, hsettings.batchSize.trans hsize,
        hsettings.refusal?.trans hrefusal, ?_⟩
      rw [hpending]
      exact Nat.lt_of_le_of_lt (Nat.zero_le _) hlt
    · rw [hflush]
      exact Or.inr ⟨error, rfl, hrefusal ▸ h.toHasTaken.isRefused_pending hne hrefused⟩

/-- **A run of operations** keeps the rows in order, or ends in a failure that the table has no part
of. -/
theorem IsInOrder.performAll (h : s.IsInOrder refusal? size table rows) (ops : List Operation) :
    (∃ s', s.performAll ops = (s', .ok ()) ∧
        s'.IsInOrder refusal? size table (rows ++ addedRows ops)) ∨
      ∃ s' error, s.performAll ops = (s', .error error) ∧
        s'.HasStored table (rows ++ addedRows ops) ∧
        IsRefused refusal? (rows ++ addedRows ops) s' error := by
  induction ops generalizing s rows with
  | nil => exact Or.inl ⟨s, rfl, (List.append_nil rows).symm ▸ h⟩
  | cons op ops ih =>
    rw [addedRows_cons, ← List.append_assoc]
    rcases h.perform op with ⟨s', hop, hs'⟩ | ⟨error, hop, hrefused⟩
    · rw [Sink.performAll, hop]
      exact ih hs'
    · rw [Sink.performAll, hop]
      have hstored : HasStored table rows { s with pending := [] } := ⟨h.table, h.inserted_le⟩
      exact Or.inr ⟨_, error, rfl, (hstored.append _).append _, hrefused.append _⟩

/-! ## Leaving a sink -/

/-- The table and the count of a sink are those of another. -/
def KeepsTable (s s' : Sink ε) : Prop := s'.table = s.table ∧ s'.inserted = s.inserted

/-- **A flush that fails** leaves the table and the count as they were. -/
theorem keepsTable_of_flush (h : s.flush.2 = .error error) : s.KeepsTable s.flush.1 := by
  unfold flush at h ⊢
  split
  · exact ⟨rfl, rfl⟩
  · rename_i hpending
    rw [if_neg hpending] at h
    split
    · rename_i table hinsert
      rw [hinsert] at h
      cases h
    · exact ⟨rfl, rfl⟩

theorem keepsTable_of_close (h : (s.close false).2 = .error error) :
    s.KeepsTable (s.close false).1 := by
  have hclose : s.close false = (s.flush.1, s.flush.2.map fun _ => ()) := rfl
  rw [hclose] at h ⊢
  cases hcount : s.flush.2 with
  | ok count =>
    rw [hcount] at h
    cases h
  | error error => exact keepsTable_of_flush hcount

/-- What holds after operations on a sink for a table, and when it is left then. -/
structure KeepsOrder (refusal? : Refusal ε) (batchSize : Int) (table : GamesTable)
    (ops : List Operation) (run : Sink ε × Except ε Unit) : Prop where
  /-- The table holds the rows of the first records, as many as are counted. -/
  stored : run.1.HasStored table (addedRows ops)
  /-- As long as no insertion has failed, the other rows wait. -/
  pending : run.2 = .ok () → run.1.pending = (addedRows ops).drop run.1.inserted
  length_pending_lt : run.2 = .ok () → run.1.pending.length < max 1 batchSize.toNat
  /-- All rows are stored if the sink is left without a failure. -/
  close : run.2 = .ok () → ∀ s, run.1.close false = (s, .ok ()) →
    s.pending = [] ∧ s.inserted = (addedRows ops).length ∧ s.table = table.extended (addedRows ops)
  /-- An insertion fails only if the database refuses the next rows. -/
  error : ∀ error, run.2 = .error error ∨ run.2 = .ok () ∧ (run.1.close false).2 = .error error →
    IsRefused refusal? (addedRows ops) run.1 error
  /-- If the database looks at one row at a time, no insertion fails exactly if it accepts all. -/
  succeeds_iff : ∀ p, refusal?.IsRowwise p →
    (run.2 = .ok () ∧ (run.1.close false).2 = .ok () ↔ ∀ row ∈ addedRows ops, p row)

theorem keepsOrder (refusal? : Refusal ε) (batchSize : Int) (table : GamesTable)
    (ops : List Operation) :
    KeepsOrder refusal? batchSize table ops
      ((startWith refusal? batchSize table).performAll ops) := by
  have hrun := (isInOrder_startWith refusal? batchSize table).performAll ops
  rw [List.nil_append] at hrun
  rcases hrun with ⟨s, hrun, hs⟩ | ⟨s, error, hrun, hs, hrefused⟩
  · rw [hrun]
    have hclose := hs.close
    rw [hs.refusal?_eq] at hclose
    constructor
    case stored => exact hs.hasStored
    case pending => exact fun _ => hs.pending
    case length_pending_lt => exact fun _ => hs.length_pending_lt
    case close =>
      intro _ s' hs'
      rcases hclose with ⟨s'', hclose, hpending, hinserted, htable, _⟩ | ⟨error, _, _, hclose⟩
      · obtain rfl : s'' = s' := congrArg Prod.fst (hclose.symm.trans hs')
        exact ⟨hpending, hinserted, htable⟩
      · cases congrArg Prod.snd (hclose.symm.trans hs')
    case error =>
      intro error' herror
      have hleft := (herror.resolve_left (by simp)).2
      rcases hclose with ⟨s', hclose, _⟩ | ⟨error, hne, hrefused, hclose⟩
      · cases (congrArg Prod.snd hclose).symm.trans hleft
      · cases (congrArg Prod.snd hclose).symm.trans hleft
        exact hs.refusal?_eq ▸ hs.isRefused_pending hne (hs.refusal?_eq.symm ▸ hrefused)
    case succeeds_iff =>
      intro p hp
      rw [and_iff_right rfl]
      rcases hclose with ⟨s', hclose, _, _, _, haccepted⟩ | ⟨error, hne, hrefused, hclose⟩
      · exact iff_of_true (congrArg Prod.snd hclose) (haccepted p hp)
      · refine iff_of_false (fun hok => ?_) ?_
        · cases (congrArg Prod.snd hclose).symm.trans hok
        · have hnext := hs.isRefused_pending hne (hs.refusal?_eq.symm ▸ hrefused)
          rw [hs.refusal?_eq] at hnext
          exact hnext.not_forall hp
  · rw [hrun]
    constructor
    case stored => exact hs
    case pending => exact fun hok => nomatch hok
    case length_pending_lt => exact fun hok => nomatch hok
    case close => exact fun hok => nomatch hok
    case error =>
      intro error' herror
      obtain rfl : error = error' := by simpa using herror
      exact hrefused
    case succeeds_iff =>
      exact fun p hp => iff_of_false (fun hok => nomatch hok.1) (hrefused.not_forall hp)

/-- **The rows stay in order**, whatever the size of the batches is, whatever is done with a sink
and whatever the database refuses. At every moment the table holds the rows of the first records
that were added, as many as are counted, and as long as no insertion has failed the others wait,
fewer than a batch. Leaving the sink stores them, unless something has gone wrong outside; then
nothing is stored. An insertion that fails changes neither the table nor the count. In a table of
games no insertion fails exactly if all ratings fit. -/
theorem run_keeps_order (refusal? : Refusal ε) (batchSize : Int) (table : GamesTable) :
    (∀ ops : List Operation, KeepsOrder refusal? batchSize table ops
      ((startWith refusal? batchSize table).performAll ops)) ∧
    (∀ s : Sink ε, s.close true = (s, .ok ()) ∧
      (∀ error, s.flush.2 = .error error → s.KeepsTable s.flush.1) ∧
      ∀ error, (s.close false).2 = .error error → s.KeepsTable (s.close false).1) ∧
    ∀ ops : List Operation,
      (((start batchSize table).performAll ops).2 = .ok () ∧
          (((start batchSize table).performAll ops).1.close false).2 = .ok () ↔
        ∀ record ∈ addedRecords ops, record.HasStorableRatings) := by
  refine ⟨keepsOrder refusal? batchSize table,
    fun _ => ⟨rfl, fun _ => keepsTable_of_flush, fun _ => keepsTable_of_close⟩, fun ops => ?_⟩
  rw [← isStorable_addedRows_iff]
  exact (keepsOrder refusesNumbers batchSize table ops).succeeds_iff _ isRowwise_refusesNumbers

end Sink

end Scoresheet
