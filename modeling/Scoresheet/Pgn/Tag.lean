import Scoresheet.Text.Basic

/-!
# Tag pairs

A tag line holds one or more groups `[Key "value"]`. In a value a backslash stands before each
quote and each backslash. A line that is no such sequence of groups is still taken as one tag pair
if it has the outline of one; its value then runs to the last quote of the line, so that quotes in
it need no backslash.
-/

namespace Scoresheet.Pgn

open Text

/-- A tag pair. -/
structure Tag where
  key : Text
  value : Text
  deriving DecidableEq, Repr

namespace Tag

/-- A character that may open a key. -/
def isKeyStart (c : Char) : Bool :=
  ('A' ≤ c && c ≤ 'Z') || ('a' ≤ c && c ≤ 'z') || ('0' ≤ c && c ≤ '9') || c == '_'

/-- A character that may follow in a key. -/
def isKeyChar (c : Char) : Bool :=
  isKeyStart c || c == '+' || c == '#' || c == '=' || c == ':' || c == '-'

/-! ## One group -/

/-- Reads the opening bracket, the key and the opening quote of a group; gives the key and what
follows the quote. -/
def readKey? : Text → Option (Text × Text)
  | '[' :: t =>
    let t := trimLeft t
    let key := t.takeWhile isKeyChar
    match key.head?, t.dropWhile isKeyChar with
    | some k, c :: rest =>
      if isKeyStart k && isBlank c then
        match trimLeft rest with
        | '"' :: rest => some (key, rest)
        | _ => none
      else none
    | _, _ => none
  | _ => none

/-- What a backslash and the character after it stand for. -/
def unescapePair (c : Char) : Text := if c = '"' || c = '\\' then [c] else ['\\', c]

/-- Reads a value up to the quote that ends it; gives the value and what follows the quote. -/
def readValue? : Text → Option (Text × Text)
  | [] => none
  | '"' :: rest => some ([], rest)
  | ['\\'] => none
  | '\\' :: c :: rest => (readValue? rest).map fun r => (unescapePair c ++ r.1, r.2)
  | c :: rest => (readValue? rest).map fun r => (c :: r.1, r.2)

/-- Reads the bracket that ends a group, after white space. -/
def readClose? (t : Text) : Option Text :=
  match trimLeft t with
  | ']' :: rest => some rest
  | _ => none

/-- Reads one group; gives the tag pair and what follows the group. -/
def read? (t : Text) : Option (Tag × Text) :=
  match readKey? t with
  | none => none
  | some (key, t) =>
    match readValue? t with
    | none => none
    | some (value, t) => (readClose? t).map fun rest => (⟨key, value⟩, rest)

theorem length_trimLeft_le (t : Text) : (trimLeft t).length ≤ t.length :=
  (List.dropWhile_suffix isBlank).length_le

theorem length_readKey? {t key rest : Text} (h : readKey? t = some (key, rest)) :
    rest.length < t.length := by
  unfold readKey? at h
  split at h
  · rename_i t
    simp only at h
    split at h
    · rename_i c r _ hd
      split at h
      · split at h
        · rename_i q hq
          have h1 := length_trimLeft_le r
          have h2 : (c :: r).length ≤ (trimLeft t).length := by
            rw [← hd]
            exact (List.dropWhile_suffix isKeyChar).length_le
          have h3 := length_trimLeft_le t
          simp only [Option.some.injEq, Prod.mk.injEq] at h
          rw [hq] at h1
          simp only [List.length_cons] at h1 h2 ⊢
          rw [← h.2]
          omega
        · simp at h
      · simp at h
    · simp at h
  · simp at h

theorem length_readValue? {t value rest : Text} (h : readValue? t = some (value, rest)) :
    rest.length < t.length := by
  fun_induction readValue? t generalizing value rest with
  | case1 => simp at h
  | case2 => simp_all
  | case3 => simp at h
  | case4 c t ih =>
    obtain ⟨r, hr, he⟩ := Option.map_eq_some_iff.1 h
    have := ih hr
    simp only [Prod.mk.injEq] at he
    simp only [List.length_cons, ← he.2]
    omega
  | case5 c t _ _ _ ih =>
    obtain ⟨r, hr, he⟩ := Option.map_eq_some_iff.1 h
    have := ih hr
    simp only [Prod.mk.injEq] at he
    simp only [List.length_cons, ← he.2]
    omega

theorem length_readClose? {t rest : Text} (h : readClose? t = some rest) :
    rest.length < t.length := by
  unfold readClose? at h
  split at h
  · rename_i r hr
    have := length_trimLeft_le t
    simp only [Option.some.injEq] at h
    rw [hr, h] at this
    exact this
  · simp at h

/-- Reading a group uses up part of the text. -/
theorem length_read? {t : Text} {tag : Tag} {rest : Text} (h : read? t = some (tag, rest)) :
    rest.length < t.length := by
  unfold read? at h
  split at h
  · simp at h
  · rename_i key u hk
    split at h
    · simp at h
    · rename_i value v hv
      obtain ⟨r, hr, he⟩ := Option.map_eq_some_iff.1 h
      have h1 := length_readKey? hk
      have h2 := length_readValue? hv
      have h3 := length_readClose? hr
      simp only [Prod.mk.injEq] at he
      rw [← he.2]
      omega

/-! ## A line -/

/-- The tag pairs of a text that is a sequence of groups with white space between them. -/
def readGroups? (t : Text) : Option (List Tag) :=
  match _ht : trimLeft t with
  | [] => some []
  | c :: cs =>
    match _hr : read? (c :: cs) with
    | none => none
    | some (tag, rest) => (readGroups? rest).map (tag :: ·)
termination_by t.length
decreasing_by
  have := length_trimLeft_le t
  have := length_read? _hr
  rw [_ht] at *
  omega

/-- A value with the backslash before each quote and each backslash taken out. -/
def unescape : Text → Text
  | '\\' :: c :: rest => unescapePair c ++ unescape rest
  | c :: rest => c :: unescape rest
  | [] => []

/-- The tag pair of a line that has the outline of one group. -/
def readLoose? (t : Text) : Option Tag :=
  match readKey? t with
  | none => none
  | some (key, rest) =>
    match rest.reverse with
    | ']' :: r =>
      match trimLeft r with
      | '"' :: value => some ⟨key, unescape value.reverse⟩
      | _ => none
    | _ => none

/-- The tag pairs of a tag line without the white space at its ends; none if it is malformed. -/
def readLine? (t : Text) : Option (List Tag) :=
  match readGroups? t with
  | some tags => some tags
  | none => (readLoose? t).map fun tag => [tag]

end Tag

end Scoresheet.Pgn
