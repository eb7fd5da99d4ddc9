import Mathlib.Data.List.Perm.Subperm
import Scoresheet.Proofs.Store.Rows

/-!
# What is replaced in a row, and what is noted of it

A row is made ready for a table column by column: where a text holds NUL characters, spaces take
their place and a note is taken, and the notes are put behind the error of the record at the end
(`Draft`). This gives the row that `GameRow.ofRecord` gives at once (`Draft.finish_goOverAll`).

`GameRow.IsSanitized` says what such a row holds, character by character and note by note, and
leaves no choice (`GameRow.isSanitized_iff`). A record of what it holds is stored as it is, without
a further note (`GameRow.replaced_and_noted`).
-/

namespace Scoresheet

open Text

/-! ## Texts -/

namespace Text

/-- The second text is the first with a space in each place of a NUL character. -/
structure IsWithoutNul (t u : Text) : Prop where
  length_eq : u.length = t.length
  replaced : ∀ i : Nat, t[i]? = some '\x00' → u[i]? = some ' '
  kept : ∀ (i : Nat) (c : Char), t[i]? = some c → c ≠ '\x00' → u[i]? = some c

theorem isWithoutNul_iff {t u : Text} : IsWithoutNul t u ↔ u = replaceChar '\x00' ' ' t := by
  constructor
  · intro h
    refine List.ext_getElem? fun i => ?_
    rw [replaceChar, List.getElem?_map]
    cases hc : t[i]? with
    | none =>
      rw [List.getElem?_eq_none_iff, ← h.length_eq] at hc
      exact List.getElem?_eq_none hc
    | some c =>
      rw [Option.map_some]
      by_cases hnul : c = '\x00'
      · rw [if_pos hnul]
        exact h.replaced i (hnul ▸ hc)
      · rw [if_neg hnul]
        exact h.kept i c hc hnul
  · rintro rfl
    refine ⟨List.length_map _, fun i hi => ?_, fun i c hi hc => ?_⟩
    · rw [replaceChar, List.getElem?_map, hi]
      rfl
    · rw [replaceChar, List.getElem?_map, hi, Option.map_some, if_neg hc]

end Text

/-! ## Cells -/

namespace Cell

/-- The second cell is the first, but for a space in each place of a NUL character. -/
inductive IsCleaned : Cell → Cell → Prop
  | text {t u : Text} (h : IsWithoutNul t u) : IsCleaned (.text t) (.text u)
  | other {cell : Cell} (h : cell.text? = none) : IsCleaned cell cell

theorem withoutNul_of_text?_eq_none {cell : Cell} (h : cell.text? = none) :
    cell.withoutNul = cell := by
  cases cell with
  | text t => cases h
  | _ => rfl

theorem withoutNul_of_holdsNul_eq_false {cell : Cell} (h : cell.holdsNul = false) :
    cell.withoutNul = cell := by
  cases cell with
  | text t => rw [withoutNul, replaceChar_of_not_mem (holdsNul_text_iff.1 h)]
  | _ => rfl

theorem isCleaned_iff {cell cleaned : Cell} :
    cell.IsCleaned cleaned ↔ cleaned = cell.withoutNul := by
  constructor
  · intro h
    cases h with
    | text h => rw [isWithoutNul_iff.1 h, withoutNul]
    | other h => exact (withoutNul_of_text?_eq_none h).symm
  · rintro rfl
    cases cell with
    | text t => exact .text (isWithoutNul_iff.2 rfl)
    | _ => exact .other rfl

theorem holdsNul_iff {cell : Cell} : cell.holdsNul = true ↔ ∃ t, cell = .text t ∧ '\x00' ∈ t := by
  cases cell <;> simp [holdsNul, text?]

@[simp]
theorem withoutNul_ofText (t : Option Text) :
    (ofText t).withoutNul = ofText (t.map (replaceChar '\x00' ' ')) := by
  cases t <;> rfl

@[simp]
theorem text?_ofText (t : Option Text) : (ofText t).text? = t := by
  cases t <;> rfl

@[simp]
theorem text?_ofInteger (n : Option Int) : (ofInteger n).text? = none := by
  cases n <;> rfl

@[simp]
theorem text?_ofDate (d : Option Date) : (ofDate d).text? = none := by
  cases d <;> rfl

@[simp]
theorem text?_ofTime (t : Option ClockTime) : (ofTime t).text? = none := by
  cases t <;> rfl

/-- Notes stand behind what a cell says, with a semicolon between neighbours. A cell that is empty
says nothing, and without notes it stays as it is. -/
inductive IsNoted (cell : Cell) : List Text → Cell → Prop
  | unchanged : IsNoted cell [] cell
  | alone {notes : List Text} (hnotes : notes ≠ []) (h : ∀ t, cell.text? = some t → t = []) :
    IsNoted cell notes (.text (join [';', ' '] notes))
  | behind {notes : List Text} {t : Text} (hnotes : notes ≠ []) (h : cell.text? = some t)
      (ht : t ≠ []) : IsNoted cell notes (.text (join [';', ' '] (t :: notes)))

theorem isNoted_iff {cell noted : Cell} {notes : List Text} :
    cell.IsNoted notes noted ↔ noted = GameRow.withNotes cell notes := by
  constructor
  · intro h
    unfold GameRow.withNotes
    cases h with
    | unchanged => rfl
    | alone hnotes h =>
      have hnone : cell.text?.filter (!·.isEmpty) = none := by
        rw [Option.filter_eq_none_iff]
        intro t ht
        simp [h t ht]
      rw [if_neg (by simpa using hnotes), hnone]
      rfl
    | @behind _ t hnotes h ht =>
      have hsome : cell.text?.filter (!·.isEmpty) = some t := by
        rw [h, Option.filter_some, if_pos (by simpa using ht)]
      rw [if_neg (by simpa using hnotes), hsome]
      rfl
  · rintro rfl
    by_cases hnotes : notes = []
    · subst hnotes
      exact .unchanged
    · unfold GameRow.withNotes
      rw [if_neg (by simpa using hnotes)]
      cases ht : cell.text? with
      | none => exact .alone hnotes (by simp [ht])
      | some t =>
        by_cases hnil : t = []
        · subst hnil
          exact .alone hnotes (by simp [ht])
        · rw [Option.filter_some, if_pos (by simpa using hnil)]
          exact .behind hnotes ht hnil

end Cell

/-! ## Columns -/

theorem Column.nodup_all : all.Nodup := by decide

/-- Columns in the order of the table are known by which of them there are. -/
theorem Column.eq_filter_of_sublist {columns : List Column} {p : Column → Bool}
    (hsublist : columns.Sublist all) (hmem : ∀ c, c ∈ columns ↔ p c = true) :
    columns = all.filter p := by
  have hkept : columns.filter p = columns := List.filter_eq_self.2 fun c hc => (hmem c).1 hc
  have hle : columns.Sublist (all.filter p) := hkept ▸ hsublist.filter p
  refine hle.eq_of_length_le ?_
  refine (List.subperm_of_subset (nodup_all.filter p) fun c hc => ?_).length_le
  exact (hmem c).2 (List.mem_filter.1 hc).2

/-- Only a column of texts holds a text. -/
theorem Record.text?_toRow (r : Record) {c : Column} (hc : c.isText = false) :
    (r.toRow c).text? = none := by
  cases c with
  | whiteElo => exact Cell.text?_ofInteger r.whiteElo
  | blackElo => exact Cell.text?_ofInteger r.blackElo
  | utcDate => exact Cell.text?_ofDate r.utcDate
  | utcTime => exact Cell.text?_ofTime r.utcTime
  | _ => cases hc

namespace GameRow

/-- What a row holds that is made of another: the same but for NUL characters, and behind the error
a note on each column of texts in which there were some, in the order of the table. -/
structure IsSanitized (row stored : GameRow) : Prop where
  cells : ∀ c, c ≠ .parseError → (row c).IsCleaned (stored c)
  notes : ∃ (error : Cell) (columns : List Column),
    (row .parseError).IsCleaned error ∧ columns.Sublist Column.all ∧
    (∀ c, c ∈ columns ↔ c.isText = true ∧ c ≠ .parseError ∧ ∃ t, row c = .text t ∧ '\x00' ∈ t) ∧
    error.IsNoted (columns.map nulNote) (stored .parseError)

theorem mem_columnsWithNul {row : GameRow} {c : Column} :
    c ∈ columnsWithNul row ↔
      c.isText = true ∧ c ≠ .parseError ∧ ∃ t, row c = .text t ∧ '\x00' ∈ t := by
  rw [columnsWithNul, List.mem_filter, and_iff_right (Column.mem_all c), Bool.and_eq_true,
    Bool.and_eq_true, bne_iff_ne, Cell.holdsNul_iff, and_assoc]

theorem columnsWithNul_unique {row : GameRow} {columns : List Column}
    (hsublist : columns.Sublist Column.all)
    (hmem : ∀ c, c ∈ columns ↔
      c.isText = true ∧ c ≠ .parseError ∧ ∃ t, row c = .text t ∧ '\x00' ∈ t) :
    columns = columnsWithNul row := by
  refine Column.eq_filter_of_sublist hsublist fun c => ?_
  rw [hmem, ← mem_columnsWithNul, columnsWithNul, List.mem_filter,
    and_iff_right (Column.mem_all c)]

/-- In all columns but that of the error only NUL characters are replaced. -/
theorem ofRecord_of_ne (r : Record) {c : Column} (hc : c ≠ .parseError) :
    ofRecord r c = (r.toRow c).withoutNul := by
  unfold ofRecord sanitized
  rw [if_neg hc]
  split
  · rfl
  · rename_i htext
    exact (Cell.withoutNul_of_text?_eq_none (r.text?_toRow (by simpa using htext))).symm

theorem ofRecord_parseError (r : Record) :
    ofRecord r .parseError
      = withNotes (r.toRow .parseError).withoutNul ((columnsWithNul r.toRow).map nulNote) := rfl

/-- **The row of a record is the only one** that is made of it. -/
theorem isSanitized_iff (r : Record) (stored : GameRow) :
    IsSanitized r.toRow stored ↔ stored = ofRecord r := by
  constructor
  · rintro ⟨hcells, error, columns, herror, hsublist, hmem, hnotes⟩
    funext c
    by_cases hc : c = .parseError
    · subst hc
      rw [Cell.isNoted_iff.1 hnotes, Cell.isCleaned_iff.1 herror,
        columnsWithNul_unique hsublist hmem, ofRecord_parseError]
    · rw [ofRecord_of_ne r hc, Cell.isCleaned_iff.1 (hcells c hc)]
  · rintro rfl
    refine ⟨fun c hc => Cell.isCleaned_iff.2 (ofRecord_of_ne r hc), _, columnsWithNul r.toRow,
      Cell.isCleaned_iff.2 rfl, List.filter_sublist, fun c => mem_columnsWithNul,
      Cell.isNoted_iff.2 (ofRecord_parseError r)⟩

/-! ## A row that holds no NUL character -/

/-- A record whose texts but the error hold no NUL character is not noted. -/
theorem ofRecord_of_holdsNul_eq_false {r : Record}
    (h : ∀ c, c ≠ .parseError → (r.toRow c).holdsNul = false) :
    ofRecord r = fun c => (r.toRow c).withoutNul := by
  have hnone : columnsWithNul r.toRow = [] := by
    refine List.eq_nil_iff_forall_not_mem.2 fun c hc => ?_
    obtain ⟨_, hne, ht⟩ := mem_columnsWithNul.1 hc
    rw [← Cell.holdsNul_iff, h c hne] at ht
    cases ht
  funext c
  by_cases hc : c = .parseError
  · subst hc
    rw [ofRecord_parseError, hnone]
    rfl
  · exact ofRecord_of_ne r hc

end GameRow

/-- The record of what the row of a record holds. -/
def Record.sanitized (r : Record) : Record :=
  let clean : Option Text → Option Text := Option.map (replaceChar '\x00' ' ')
  { r with
    event := clean r.event
    site := clean r.site
    white := clean r.white
    black := clean r.black
    result := clean r.result
    whiteTitle := clean r.whiteTitle
    blackTitle := clean r.blackTitle
    eco := clean r.eco
    opening := clean r.opening
    termination := clean r.termination
    timeControl := clean r.timeControl
    movetext := replaceChar '\x00' ' ' r.movetext
    parseError := (GameRow.ofRecord r .parseError).text?
    source := clean r.source }

theorem GameRow.ofText_text?_ofRecord (r : Record) :
    Cell.ofText (ofRecord r .parseError).text? = ofRecord r .parseError := by
  have hcleaned : (r.toRow .parseError).withoutNul
      = .ofText (r.parseError.map (replaceChar '\x00' ' ')) := Cell.withoutNul_ofText r.parseError
  rw [ofRecord_parseError, hcleaned, withNotes]
  split
  · rw [Cell.text?_ofText]
  · rfl

theorem Record.toRow_sanitized (r : Record) : r.sanitized.toRow = GameRow.ofRecord r := by
  funext c
  by_cases hc : c = .parseError
  · subst hc
    exact GameRow.ofText_text?_ofRecord r
  · rw [GameRow.ofRecord_of_ne r hc]
    cases c with
    | parseError => exact absurd rfl hc
    | whiteElo | blackElo =>
      exact (Cell.withoutNul_of_text?_eq_none (Cell.text?_ofInteger _)).symm
    | utcDate => exact (Cell.withoutNul_of_text?_eq_none (Cell.text?_ofDate _)).symm
    | utcTime => exact (Cell.withoutNul_of_text?_eq_none (Cell.text?_ofTime _)).symm
    | movetext => rfl
    | _ => exact (Cell.withoutNul_ofText _).symm

/-! ## One column after another -/

/-- A row that is gone over, and the notes that have been taken. -/
structure Draft where
  row : GameRow
  notes : List Text

namespace Draft

/-- Whether a row is to be changed and noted in a column. The column of the notes is left to the
end. -/
def needsNote (row : GameRow) (c : Column) : Bool :=
  c.isText && c != .parseError && (row c).holdsNul

/-- Goes over a column. -/
def goOver (d : Draft) (c : Column) : Draft :=
  if needsNote d.row c then
    ⟨fun c' => if c' = c then (d.row c).withoutNul else d.row c', d.notes ++ [GameRow.nulNote c]⟩
  else d

/-- Puts a note behind what there is. -/
def addNote (error : Option Text) (note : Text) : Option Text :=
  match error with
  | none | some [] => some note
  | some error => some (error ++ ([';', ' '] ++ note))

/-- Puts the notes behind the error. -/
def finish (d : Draft) : GameRow := fun c =>
  if c = .parseError then .ofText (d.notes.foldl addNote (d.row .parseError).withoutNul.text?)
  else d.row c

variable {row : GameRow} {done : List Column} {d : Draft}

/-- Some columns have been gone over. -/
structure HasGoneOver (row : GameRow) (done : List Column) (d : Draft) : Prop where
  cells : ∀ c, d.row c = if c ∈ done ∧ needsNote row c = true then (row c).withoutNul else row c
  notes : d.notes = (done.filter (needsNote row)).map GameRow.nulNote

theorem HasGoneOver.goOver (h : HasGoneOver row done d) {c : Column} (hc : c ∉ done) :
    HasGoneOver row (done ++ [c]) (d.goOver c) := by
  have hcell : d.row c = row c := by rw [h.cells, if_neg fun hdone => hc hdone.1]
  have hneeds : needsNote d.row c = needsNote row c := by rw [needsNote, needsNote, hcell]
  by_cases hnote : needsNote row c = true
  · rw [Draft.goOver, hneeds, if_pos hnote, hcell]
    refine ⟨fun c' => ?_, by simp [h.notes, hnote]⟩
    by_cases hc' : c' = c
    · subst hc'
      simp [hnote]
    · simp [hc', h.cells]
  · rw [Draft.goOver, hneeds, if_neg hnote]
    refine ⟨fun c' => ?_, by simp [h.notes, hnote]⟩
    by_cases hc' : c' = c
    · subst hc'
      simp [hnote, hcell]
    · simp [hc', h.cells]

theorem HasGoneOver.foldl {columns : List Column} (h : HasGoneOver row done d)
    (hnodup : (done ++ columns).Nodup) :
    HasGoneOver row (done ++ columns) (columns.foldl Draft.goOver d) := by
  induction columns generalizing done d with
  | nil => rwa [List.append_nil]
  | cons c columns ih =>
    rw [List.append_cons] at hnodup ⊢
    have hc : c ∉ done := by
      have hleft := (List.nodup_append.1 hnodup).1
      exact fun hmem => (List.nodup_append.1 hleft).2.2 c hmem c (by simp) rfl
    exact ih (h.goOver hc) hnodup

/-! ### Notes one by one -/

/-- A text that is put behind the first of some texts is one of them. -/
theorem join_cons_append (sep t u : Text) (ts : List Text) :
    join sep ((t ++ (sep ++ u)) :: ts) = join sep (t :: u :: ts) := by
  rw [join_cons (List.cons_ne_nil u ts)]
  by_cases hts : ts = []
  · subst hts
    rw [join_singleton, join_singleton]
  · rw [join_cons hts, join_cons hts]
    simp only [List.append_assoc]

theorem foldl_addNote_some {error : Text} (herror : error ≠ []) (notes : List Text) :
    notes.foldl addNote (some error) = some (join [';', ' '] (error :: notes)) := by
  induction notes generalizing error with
  | nil => rw [List.foldl_nil, join_singleton]
  | cons note notes ih =>
    obtain ⟨c, cs, rfl⟩ := List.exists_cons_of_ne_nil herror
    rw [List.foldl_cons, addNote, ih (by simp), join_cons_append]
    simp

/-- Notes that are put behind an error one by one are joined to it. -/
theorem ofText_foldl_addNote (error : Option Text) {notes : List Text}
    (hnotes : ∀ note ∈ notes, note ≠ []) :
    Cell.ofText (notes.foldl addNote error) = GameRow.withNotes (.ofText error) notes := by
  cases notes with
  | nil => rfl
  | cons note notes =>
    have hnote : note ≠ [] := hnotes note List.mem_cons_self
    rw [GameRow.withNotes, if_neg (by simp), Cell.text?_ofText, List.foldl_cons]
    rcases error with _ | _ | ⟨c, cs⟩
    · rw [addNote, foldl_addNote_some hnote]
      rfl
    · rw [addNote, foldl_addNote_some hnote]
      rfl
    · rw [addNote, foldl_addNote_some (by simp), join_cons_append]
      · rfl
      · simp

/-- Goes over all columns of the row of a record. -/
def goOverAll (r : Record) : Draft := Column.all.foldl goOver ⟨r.toRow, []⟩

theorem hasGoneOver_goOverAll (r : Record) : HasGoneOver r.toRow Column.all (goOverAll r) := by
  have hstart : HasGoneOver r.toRow [] ⟨r.toRow, []⟩ := ⟨fun c => by simp, rfl⟩
  have hall : HasGoneOver r.toRow ([] ++ Column.all) (goOverAll r) := hstart.foldl Column.nodup_all
  rwa [List.nil_append] at hall

/-- **One column after another** a row becomes the row that is stored. -/
theorem finish_goOverAll (r : Record) : (goOverAll r).finish = GameRow.ofRecord r := by
  obtain ⟨hcells, hnotes⟩ := hasGoneOver_goOverAll r
  funext c
  unfold finish
  by_cases hc : c = .parseError
  · subst hc
    have herror : (goOverAll r).row .parseError = .ofText r.parseError := by
      rw [hcells, if_neg (by simp [needsNote])]
      rfl
    have hne : ∀ note ∈ (goOverAll r).notes, note ≠ [] := by
      rw [hnotes]
      intro note hnote
      obtain ⟨c, _, rfl⟩ := List.mem_map.1 hnote
      exact List.append_ne_nil_of_left_ne_nil (by decide) _
    rw [if_pos rfl, herror, Cell.withoutNul_ofText, Cell.text?_ofText,
      ofText_foldl_addNote _ hne, hnotes, ← Cell.withoutNul_ofText]
    rfl
  · rw [if_neg hc, hcells, GameRow.ofRecord_of_ne r hc]
    split
    · rfl
    · rename_i hnote
      -- what needs no note holds no NUL character
      refine (Cell.withoutNul_of_holdsNul_eq_false ?_).symm
      by_cases htext : c.isText = true
      · simpa [Column.mem_all, needsNote, htext, hc] using hnote
      · rw [Cell.holdsNul, r.text?_toRow (Bool.eq_false_iff.2 htext)]
        rfl

end Draft

/-- **NUL characters are replaced, and where they were is noted.** Going over the columns of a
record one after another gives its row. In that row no text holds a NUL character; but for them the
texts are those of the record, and behind its error stands one note on each column of texts that
held some, in the order of the table. No other row is like that. If a record holds what the row
holds in all columns but that of the error, no note is added to its error, and the record of the
whole row has that row. -/
theorem GameRow.replaced_and_noted (r : Record) :
    (Draft.goOverAll r).finish = ofRecord r ∧
    (∀ c t, ofRecord r c = .text t → '\x00' ∉ t) ∧
    (∀ stored, IsSanitized r.toRow stored ↔ stored = ofRecord r) ∧
    (∀ r' : Record, (∀ c, c ≠ .parseError → r'.toRow c = ofRecord r c) →
      ofRecord r' = fun c => (r'.toRow c).withoutNul) ∧
    r.sanitized.toRow = ofRecord r ∧ ofRecord r.sanitized = ofRecord r := by
  have hclean : ∀ r' : Record, (∀ c, c ≠ .parseError → r'.toRow c = ofRecord r c) →
      ofRecord r' = fun c => (r'.toRow c).withoutNul := by
    intro r' hr'
    refine ofRecord_of_holdsNul_eq_false fun c hc => ?_
    rw [hr' c hc]
    exact holdsNul_ofRecord r c
  refine ⟨Draft.finish_goOverAll r, fun c t ht => ?_, isSanitized_iff r, hclean,
    r.toRow_sanitized, ?_⟩
  · rw [← Cell.holdsNul_text_iff, ← ht]
    exact holdsNul_ofRecord r c
  · rw [hclean r.sanitized fun c _ => by rw [r.toRow_sanitized], r.toRow_sanitized]
    funext c
    exact Cell.withoutNul_of_holdsNul_eq_false (holdsNul_ofRecord r c)

end Scoresheet
