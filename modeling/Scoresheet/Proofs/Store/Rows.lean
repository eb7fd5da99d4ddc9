import Scoresheet.Proofs.Text.Joining
import Scoresheet.Store.Sink

/-!
# What a table can store

In the row of a record no text holds a NUL character (`GameRow.holdsNul_ofRecord`), and the only
numbers are the two ratings. So there is a place in a table for the row exactly if both ratings fit
into 64 bits (`GameRow.isStorable_ofRecord_iff`).
-/

namespace Scoresheet

open Text

/-! ## NUL characters -/

theorem Text.not_mem_replaceChar {old new : Char} (h : new ≠ old) (t : Text) :
    old ∉ replaceChar old new t := by
  intro hmem
  obtain ⟨c, _, hc⟩ := List.mem_map.1 hmem
  by_cases hold : c = old
  · rw [if_pos hold] at hc
    exact h hc
  · rw [if_neg hold] at hc
    exact hold hc

namespace Cell

variable {cell : Cell}

theorem holdsNul_text_iff {t : Text} : (text t).holdsNul = false ↔ '\x00' ∉ t := by
  simp [holdsNul, text?]

theorem holdsNul_withoutNul (cell : Cell) : cell.withoutNul.holdsNul = false := by
  cases cell with
  | text t => exact holdsNul_text_iff.2 (not_mem_replaceChar (by decide) t)
  | _ => rfl

end Cell

namespace GameRow

theorem nul_not_mem_nulNote (c : Column) : '\x00' ∉ nulNote c := by
  cases c <;> decide

theorem holdsNul_withNotes {cell : Cell} {notes : List Text} (hcell : cell.holdsNul = false)
    (hnotes : ∀ note ∈ notes, '\x00' ∉ note) : (withNotes cell notes).holdsNul = false := by
  unfold withNotes
  split
  · exact hcell
  · refine Cell.holdsNul_text_iff.2 (not_mem_join (by decide) fun t ht => ?_)
    rcases List.mem_append.1 ht with ht | ht
    · obtain ⟨htext, _⟩ := Option.filter_eq_some_iff.1 (Option.mem_toList.1 ht)
      cases cell with
      | text u =>
        rw [← Option.some.inj htext]
        exact Cell.holdsNul_text_iff.1 hcell
      | _ => cases htext
    · exact hnotes t ht

/-- **No text of a row holds a NUL character.** -/
theorem holdsNul_ofRecord (r : Record) (c : Column) : (ofRecord r c).holdsNul = false := by
  unfold ofRecord sanitized
  split
  · refine holdsNul_withNotes (Cell.holdsNul_withoutNul _) fun note hnote => ?_
    obtain ⟨c', _, rfl⟩ := List.mem_map.1 hnote
    exact nul_not_mem_nulNote c'
  · split
    · exact Cell.holdsNul_withoutNul _
    · rename_i htext
      -- the other columns hold numbers, dates and times
      cases c with
      | whiteElo => unfold Record.toRow; cases r.whiteElo <;> rfl
      | blackElo => unfold Record.toRow; cases r.blackElo <;> rfl
      | utcDate => unfold Record.toRow; cases r.utcDate <;> rfl
      | utcTime => unfold Record.toRow; cases r.utcTime <;> rfl
      | _ => exact absurd rfl htext

/-! ## Numbers -/

/-- There is a place in a table for each number of the row. -/
def IsStorable (row : GameRow) : Prop := ∀ c, (row c).unstorable? = none

end GameRow

theorem Cell.unstorable?_withoutNul (cell : Cell) :
    cell.withoutNul.unstorable? = cell.unstorable? := by
  cases cell <;> rfl

/-- Only a column of numbers can have a number without a place. -/
theorem Record.unstorable?_toRow_of_isText (r : Record) {c : Column} (hc : c.isText = true) :
    (r.toRow c).unstorable? = none := by
  have htext : ∀ t : Option Text, (Cell.ofText t).unstorable? = none := by
    intro t
    cases t <;> rfl
  cases c with
  | whiteElo | blackElo | utcDate | utcTime => cases hc
  | movetext => rfl
  | _ => exact htext _

/-- Both ratings of a record, as far as they are known, fit into 64 bits. -/
def Record.HasStorableRatings (r : Record) : Prop :=
  (∀ n, r.whiteElo = some n → Cell.fits n = true) ∧ ∀ n, r.blackElo = some n → Cell.fits n = true

theorem Cell.unstorable?_ofInteger_eq_none_iff (number : Option Int) :
    (ofInteger number).unstorable? = none ↔ ∀ n, number = some n → fits n = true := by
  cases number with
  | none => exact iff_of_true rfl (by simp)
  | some n => simp [ofInteger, unstorable?]

namespace GameRow

theorem unstorable?_withNotes {cell : Cell} (hcell : cell.unstorable? = none) (notes : List Text) :
    (withNotes cell notes).unstorable? = none := by
  unfold withNotes
  split
  · exact hcell
  · rfl

theorem unstorable?_ofRecord (r : Record) (c : Column) :
    (ofRecord r c).unstorable? = (r.toRow c).unstorable? := by
  unfold ofRecord sanitized
  split
  · rename_i hc
    subst hc
    have hnotes : (r.toRow .parseError).unstorable? = none :=
      r.unstorable?_toRow_of_isText rfl
    rw [hnotes]
    exact unstorable?_withNotes ((Cell.unstorable?_withoutNul _).trans hnotes) _
  · split
    · exact Cell.unstorable?_withoutNul _
    · rfl

/-- **The row of a record can be stored** exactly if its ratings can. -/
theorem isStorable_ofRecord_iff (r : Record) :
    (ofRecord r).IsStorable ↔ r.HasStorableRatings := by
  unfold IsStorable Record.HasStorableRatings
  simp only [unstorable?_ofRecord]
  rw [← Cell.unstorable?_ofInteger_eq_none_iff, ← Cell.unstorable?_ofInteger_eq_none_iff]
  constructor
  · exact fun h => ⟨h .whiteElo, h .blackElo⟩
  · rintro ⟨hwhite, hblack⟩ c
    by_cases hc : c.isText = true
    · exact r.unstorable?_toRow_of_isText hc
    · cases c with
      | whiteElo => exact hwhite
      | blackElo => exact hblack
      | utcDate => unfold Record.toRow; cases r.utcDate <;> rfl
      | utcTime => unfold Record.toRow; cases r.utcTime <;> rfl
      | _ => exact absurd rfl hc

end GameRow

end Scoresheet
