import Scoresheet.Proofs.Text.Joining
import Scoresheet.Proofs.Text.Numerals
import Scoresheet.Text.Json

/-!
# JSON texts name their values

Different values have different texts (`Json.toText_injective`). Each part of a text shows where it
ends: a string at a quote without a backslash before it, an array or object at its bracket, and a
number where no digit follows. So the induction is about a text with something behind it that does
not begin with a digit (`IsTold`).
-/

namespace Scoresheet

open Text

namespace Json

/-! ## What stands behind a value -/

/-- A number before the text ends there. -/
def EndsNumber (t : Text) : Prop := ∀ c ∈ t.head?, isAsciiDigit c = false

theorem endsNumber_nil : EndsNumber [] := by simp [EndsNumber]

theorem endsNumber_cons {c : Char} (h : isAsciiDigit c = false) (t : Text) :
    EndsNumber (c :: t) := by
  simpa [EndsNumber] using h

/-- A text tells what it was written for and where it ends. -/
def IsTold {α : Type} (text : α → Text) (a : α) : Prop :=
  ∀ b u v, EndsNumber u → EndsNumber v → text a ++ u = text b ++ v → a = b ∧ u = v

/-! ## Strings -/

/-- The characters that are written with a backslash and a letter or sign. -/
def shortEscapes : List (Char × Char) :=
  [('"', '"'), ('\\', '\\'), ('n', '\n'), ('r', '\r'), ('t', '\t'), ('b', Char.ofNat 8),
    ('f', Char.ofNat 12)]

/-- The next character of a string and what is left of its text; none at the end of the string. -/
def nextChar? : Text → Option (Char × Text)
  | '"' :: _ => none
  | '\\' :: 'u' :: t =>
    ((List.range 32).find? fun n => hex 4 n == t.take 4).map fun n => (Char.ofNat n, t.drop 4)
  | '\\' :: c :: t => (shortEscapes.lookup c).map fun d => (d, t)
  | c :: t => some (c, t)
  | [] => none

theorem eq_ofNat {c : Char} {n : Nat} (h : c.toNat = n) : c = Char.ofNat n := by
  rw [← h, Char.ofNat_toNat]

/-- A character is read back as it was written. -/
theorem nextChar?_escapeChar (c : Char) (t : Text) :
    nextChar? (escapeChar c ++ t) = some (c, t) := by
  unfold escapeChar
  split
  · rename_i hc
    simp only [Bool.or_eq_true, decide_eq_true_eq] at hc
    rcases hc with rfl | rfl <;> rfl
  split
  · rename_i hc
    rw [hc]
    rfl
  split
  · rename_i hc
    rw [hc]
    rfl
  split
  · rename_i hc
    rw [hc]
    rfl
  split
  · rename_i hc
    rw [eq_ofNat hc]
    rfl
  split
  · rename_i hc
    rw [eq_ofNat hc]
    rfl
  split
  · rename_i hc
    have hall : ∀ n ∈ List.range 32, (hex 4 n).length = 4 ∧
        (List.range 32).find? (fun m => hex 4 m == hex 4 n) = some n := by decide +kernel
    obtain ⟨hlength, hfind⟩ := hall c.toNat (List.mem_range.2 hc)
    rw [List.cons_append, List.cons_append, nextChar?, List.take_left' hlength, hfind,
      List.drop_left' hlength, Option.map_some, Char.ofNat_toNat]
  · rename_i hc _ _ _ _ _ _
    simp only [Bool.or_eq_true, decide_eq_true_eq, not_or] at hc
    rw [List.singleton_append, nextChar?.eq_def]
    split <;> simp_all

/-- A string tells its text and where it ends. -/
theorem flatMap_escapeChar {s t u v : Text}
    (h : s.flatMap escapeChar ++ '"' :: u = t.flatMap escapeChar ++ '"' :: v) :
    s = t ∧ u = v := by
  induction s generalizing t with
  | nil =>
    cases t with
    | nil => exact ⟨rfl, List.tail_eq_of_cons_eq h⟩
    | cons d t =>
      have hnext := congrArg nextChar? h
      rw [List.flatMap_cons, List.append_assoc, nextChar?_escapeChar] at hnext
      simp [nextChar?] at hnext
  | cons c s ih =>
    have hnext := congrArg nextChar? h
    rw [List.flatMap_cons, List.append_assoc, nextChar?_escapeChar] at hnext
    cases t with
    | nil => simp [nextChar?] at hnext
    | cons d t =>
      rw [List.flatMap_cons, List.append_assoc, nextChar?_escapeChar, Option.some.injEq,
        Prod.mk.injEq] at hnext
      obtain ⟨rfl, hrest⟩ := hnext
      obtain ⟨rfl, rfl⟩ := ih hrest
      exact ⟨rfl, rfl⟩

theorem isTold_stringText (t : Text) : IsTold stringText t := by
  intro s u v _ _ h
  simp only [stringText, List.cons_append, List.append_assoc, List.nil_append, List.cons.injEq,
    true_and] at h
  exact flatMap_escapeChar h

/-! ## Numbers -/

theorem isTold_decimal (n : Nat) : IsTold decimal n := by
  intro m u v hu hv h
  have hdigits : ∀ k, ∀ c ∈ decimal k, isAsciiDigit c = true :=
    fun k _ => isAsciiDigit_of_isNumeral (isNumeral_decimal k)
  have hend : ∀ {t : Text}, EndsNumber t → t.takeWhile isAsciiDigit = [] := by
    intro t ht
    cases t with
    | nil => rfl
    | cons c t => exact List.takeWhile_cons_of_neg (by simp [ht c rfl])
  have htake := congrArg (List.takeWhile isAsciiDigit) h
  rw [List.takeWhile_append_of_pos (hdigits n), List.takeWhile_append_of_pos (hdigits m), hend hu,
    hend hv, List.append_nil, List.append_nil] at htake
  obtain rfl := decimal_injective htake
  exact ⟨rfl, List.append_cancel_left h⟩

/-! ## Lists -/

/-- Texts with commas between them, up to a bracket. -/
def delimited (close : Char) (ts : List Text) (u : Text) : Text := join [','] ts ++ close :: u

/-- What stands behind the first of some texts. -/
def behindFirst (close : Char) (ts : List Text) (u : Text) : Text :=
  if ts = [] then close :: u else ',' :: delimited close ts u

theorem delimited_cons (close : Char) (t : Text) (ts : List Text) (u : Text) :
    delimited close (t :: ts) u = t ++ behindFirst close ts u := by
  unfold behindFirst
  split
  · rename_i hts
    rw [hts, delimited, join_singleton]
  · rename_i hts
    simp [delimited, join_cons hts]

section Lists

variable {α : Type} {text : α → Text} {close : Char}

theorem endsNumber_behindFirst (hclose : isAsciiDigit close = false) (ts : List Text) (u : Text) :
    EndsNumber (behindFirst close ts u) := by
  unfold behindFirst
  split
  · exact endsNumber_cons hclose u
  · exact endsNumber_cons (by decide) _

/-- A list tells its elements and where it ends, if none of its texts begins with the bracket. -/
theorem delimited_injective (hclose : isAsciiDigit close = false) (hcomma : close ≠ ',')
    (hopen : ∀ a u, (text a ++ u).head? ≠ some close) {as : List α}
    (has : ∀ a ∈ as, IsTold text a) {bs : List α} {u v : Text}
    (h : delimited close (as.map text) u = delimited close (bs.map text) v) : as = bs ∧ u = v := by
  induction as generalizing bs with
  | nil =>
    cases bs with
    | nil => exact ⟨rfl, List.tail_eq_of_cons_eq h⟩
    | cons b bs =>
      rw [List.map_cons, delimited_cons] at h
      exact absurd (congrArg List.head? h).symm (hopen b _)
  | cons a as ih =>
    cases bs with
    | nil =>
      rw [List.map_cons, delimited_cons] at h
      exact absurd (congrArg List.head? h) (hopen a _)
    | cons b bs =>
      obtain ⟨ha, has⟩ := List.forall_mem_cons.1 has
      rw [List.map_cons, List.map_cons, delimited_cons, delimited_cons] at h
      obtain ⟨rfl, hrest⟩ := ha b _ _ (endsNumber_behindFirst hclose _ _)
        (endsNumber_behindFirst hclose _ _) h
      unfold behindFirst at hrest
      split at hrest <;> split at hrest
      · rename_i hnil hnil'
        rw [List.map_eq_nil_iff.1 hnil, List.map_eq_nil_iff.1 hnil']
        exact ⟨rfl, List.tail_eq_of_cons_eq hrest⟩
      · exact absurd (List.head_eq_of_cons_eq hrest) hcomma
      · exact absurd (List.head_eq_of_cons_eq hrest).symm hcomma
      · obtain ⟨rfl, rfl⟩ := ih has (List.tail_eq_of_cons_eq hrest)
        exact ⟨rfl, rfl⟩

end Lists

/-! ## Values -/

/-- The text of a member. -/
def memberText (member : Text × Json) : Text := stringText member.1 ++ ':' :: member.2.toText

theorem itemTexts_eq (items : List Json) : itemTexts items = items.map toText := by
  induction items with
  | nil => rfl
  | cons item items ih => rw [itemTexts, ih, List.map_cons]

theorem memberTexts_eq (members : List (Text × Json)) :
    memberTexts members = members.map memberText := by
  induction members with
  | nil => rfl
  | cons member members ih => rw [memberTexts, ih, List.map_cons, memberText]

theorem isTold_memberText {member : Text × Json} (h : IsTold toText member.2) :
    IsTold memberText member := by
  obtain ⟨name, value⟩ := member
  rintro ⟨name', value'⟩ u v hu hv heq
  have hcolon : ∀ t : Text, EndsNumber (':' :: t) := endsNumber_cons (by decide)
  simp only [memberText, List.append_assoc, List.cons_append] at heq
  obtain ⟨rfl, hrest⟩ := isTold_stringText name name' _ _ (hcolon _) (hcolon _) heq
  obtain ⟨rfl, rfl⟩ := h value' u v hu hv (List.tail_eq_of_cons_eq hrest)
  exact ⟨rfl, rfl⟩

/-- The sign of the kind of value that a character opens. -/
def kindOpened (c : Char) : Char :=
  if isAsciiDigit c then '0' else if c = 'f' then 't' else c

/-- The sign of the kind of a value. -/
def kindSign : Json → Char
  | null => 'n'
  | bool _ => 't'
  | number _ => '0'
  | string _ => '"'
  | array _ => '['
  | object _ => '\x7b'

/-- The first character of a text shows the kind of the value. -/
theorem exists_toText_eq_cons (a : Json) :
    ∃ c t, a.toText = c :: t ∧ kindOpened c = a.kindSign := by
  cases a with
  | number n =>
    have hnumeral := isNumeral_decimal n
    obtain ⟨c, t, hct⟩ := List.exists_cons_of_ne_nil (ne_nil_of_isNumeral hnumeral)
    have hc : isAsciiDigit c = true :=
      isAsciiDigit_of_isNumeral hnumeral (hct ▸ List.mem_cons_self)
    exact ⟨c, t, by rw [toText, ← hct, decimal], if_pos hc⟩
  | bool b =>
    cases b with
    | false => exact ⟨_, _, by rw [toText]; rfl, by decide⟩
    | true => exact ⟨_, _, by rw [toText]; rfl, by decide⟩
  | null => exact ⟨_, _, by rw [toText]; rfl, rfl⟩
  | string t => exact ⟨_, _, by rw [toText]; rfl, rfl⟩
  | array items => exact ⟨_, _, by rw [toText]; rfl, rfl⟩
  | object members => exact ⟨_, _, by rw [toText]; rfl, rfl⟩

theorem kindSign_eq {a b : Json} {u v : Text} (h : a.toText ++ u = b.toText ++ v) :
    a.kindSign = b.kindSign := by
  obtain ⟨c, t, ha, hc⟩ := a.exists_toText_eq_cons
  obtain ⟨d, s, hb, hd⟩ := b.exists_toText_eq_cons
  rw [ha, hb] at h
  rw [← hc, ← hd, List.head_eq_of_cons_eq h]

/-- No value opens with a bracket that closes an array. -/
theorem head?_toText_ne (a : Json) (u : Text) : (a.toText ++ u).head? ≠ some ']' := by
  obtain ⟨c, t, ha, hc⟩ := a.exists_toText_eq_cons
  rw [ha]
  intro h
  obtain rfl : c = ']' := by simpa using h
  have hkind : kindOpened ']' = ']' := by decide
  rw [hkind] at hc
  cases a <;> simp [kindSign] at hc

theorem head?_memberText_ne (member : Text × Json) (u : Text) :
    (memberText member ++ u).head? ≠ some '\x7d' := by
  simp [memberText, stringText]

/-! ## One case for each kind of value -/

theorem isTold_null : IsTold toText null := by
  intro b u v _ _ h
  have hkind := kindSign_eq h
  cases b with
  | null => exact ⟨rfl, List.append_cancel_left h⟩
  | _ => simp [kindSign] at hkind

theorem isTold_bool (x : Bool) : IsTold toText (bool x) := by
  intro b u v _ _ h
  have hkind := kindSign_eq h
  cases b with
  | bool y => cases x <;> cases y <;> simp_all [toText]
  | _ => simp [kindSign] at hkind

theorem isTold_number (n : Nat) : IsTold toText (number n) := by
  intro b u v hu hv h
  have hkind := kindSign_eq h
  cases b with
  | number m =>
    simp only [toText] at h
    obtain ⟨rfl, rfl⟩ := isTold_decimal n m u v hu hv h
    exact ⟨rfl, rfl⟩
  | _ => simp [kindSign] at hkind

theorem isTold_string (t : Text) : IsTold toText (string t) := by
  intro b u v hu hv h
  have hkind := kindSign_eq h
  cases b with
  | string s =>
    simp only [toText] at h
    obtain ⟨rfl, rfl⟩ := isTold_stringText t s u v hu hv h
    exact ⟨rfl, rfl⟩
  | _ => simp [kindSign] at hkind

theorem isTold_array {items : List Json} (htold : ∀ item ∈ items, IsTold toText item) :
    IsTold toText (array items) := by
  intro b u v _ _ h
  have hkind := kindSign_eq h
  cases b with
  | array items' =>
    simp only [toText, itemTexts_eq, List.cons_append, List.append_assoc, List.nil_append,
      List.cons.injEq, true_and] at h
    obtain ⟨rfl, rfl⟩ := delimited_injective (by decide) (by decide) head?_toText_ne htold h
    exact ⟨rfl, rfl⟩
  | _ => simp [kindSign] at hkind

theorem isTold_object {members : List (Text × Json)}
    (htold : ∀ member ∈ members, IsTold memberText member) : IsTold toText (object members) := by
  intro b u v _ _ h
  have hkind := kindSign_eq h
  cases b with
  | object members' =>
    simp only [toText, memberTexts_eq, List.cons_append, List.append_assoc, List.nil_append,
      List.cons.injEq, true_and] at h
    obtain ⟨rfl, rfl⟩ := delimited_injective (by decide) (by decide) head?_memberText_ne htold h
    exact ⟨rfl, rfl⟩
  | _ => simp [kindSign] at hkind

mutual

/-- **A text tells its value and where it ends.** -/
theorem isTold_toText : ∀ a : Json, IsTold toText a
  | null => isTold_null
  | bool x => isTold_bool x
  | number n => isTold_number n
  | string t => isTold_string t
  | array items => isTold_array (isTold_items items)
  | object members => isTold_object (isTold_members members)

theorem isTold_items : ∀ items : List Json, ∀ item ∈ items, IsTold toText item
  | [] => List.forall_mem_nil _
  | item :: items => List.forall_mem_cons.2 ⟨isTold_toText item, isTold_items items⟩

theorem isTold_members : ∀ members : List (Text × Json), ∀ member ∈ members,
    IsTold memberText member
  | [] => List.forall_mem_nil _
  | (_, value) :: members =>
    List.forall_mem_cons.2 ⟨isTold_memberText (isTold_toText value), isTold_members members⟩

end

/-- **Different values have different texts.** -/
theorem toText_injective {a b : Json} (h : a.toText = b.toText) : a = b :=
  (isTold_toText a b [] [] endsNumber_nil endsNumber_nil (by rw [h])).1

end Json

end Scoresheet
