import Scoresheet.Text.Basic

/-!
# Wildcards in names

A wildcard pattern stands for names: `*` for any characters, `?` for one, and a set in brackets for
one of its characters, or with an exclamation mark for one of all others. A closing bracket that
comes first belongs to the set. A bracket that is never closed stands for itself, and so does every
other character; there is no way of quoting but a set of one character.
-/

namespace Scoresheet

open Text

/-- One part of a wildcard pattern. -/
inductive WildcardPart
  | anyText
  | anyChar
  /-- One character of the ranges, or of none of them. -/
  | oneOf (negated : Bool) (ranges : List (Char × Char))
  | exactly (c : Char)
  deriving DecidableEq, Repr

namespace Wildcard

/-- The ranges of a set. A hyphen between two characters makes a range of them; a range whose ends
are in the wrong order holds nothing. -/
def ranges : Text → List (Char × Char)
  | low :: '-' :: high :: set => (low, high) :: ranges set
  | c :: set => (c, c) :: ranges set
  | [] => []

/-- A set up to its closing bracket, and the pattern after it. -/
def takeSet? : Text → Option (Text × Text)
  | ']' :: t => match cutAt ']' t with
    | (set, some rest) => some (']' :: set, rest)
    | (_, none) => none
  | t => match cutAt ']' t with
    | (set, some rest) => some (set, rest)
    | (_, none) => none

/-- The part for a bracket, given the pattern after it, and the pattern that is left. -/
def bracket (t : Text) : WildcardPart × Text :=
  let (negated, body) := match t with
    | '!' :: body => (true, body)
    | body => (false, body)
  match takeSet? body with
  | some (set, rest) => (.oneOf negated (ranges set), rest)
  | none => (.exactly '[', t)

theorem length_cutAt_le {sep : Char} {t a b : Text} (h : cutAt sep t = (a, some b)) :
    b.length ≤ t.length := by
  unfold cutAt at h
  split at h
  · simp at h
  · rename_i c rest hd
    simp only [Prod.mk.injEq, Option.some.injEq] at h
    have hs := (List.dropWhile_sublist (l := t) (p := (· != sep))).length_le
    rw [hd, List.length_cons] at hs
    rw [← h.2]
    omega

theorem length_takeSet_le {t set rest : Text} (h : takeSet? t = some (set, rest)) :
    rest.length ≤ t.length := by
  unfold takeSet? at h
  split at h
  · split at h
    · rename_i t' _ _ hc
      have hl := length_cutAt_le hc
      simp only [Option.some.injEq, Prod.mk.injEq] at h
      rw [← h.2, List.length_cons]
      omega
    · simp at h
  · split at h
    · rename_i hc
      simp only [Option.some.injEq, Prod.mk.injEq] at h
      rw [← h.2]
      exact length_cutAt_le hc
    · simp at h

/-- Reading a bracket never lengthens the pattern. -/
theorem length_bracket_le (t : Text) : (bracket t).2.length ≤ t.length := by
  unfold bracket
  split
  rename_i negated body hb
  split
  · rename_i set rest hs
    have hl := length_takeSet_le hs
    split at hb <;> simp only [Prod.mk.injEq] at hb <;> obtain ⟨_, rfl⟩ := hb
    · simp only [List.length_cons]
      omega
    · exact hl
  · exact Nat.le_refl _

/-- The parts of a pattern. -/
def parts : Text → List WildcardPart
  | [] => []
  | '*' :: t => .anyText :: parts t
  | '?' :: t => .anyChar :: parts t
  | '[' :: t => (bracket t).1 :: parts (bracket t).2
  | c :: t => .exactly c :: parts t
termination_by t => t.length
decreasing_by
  · exact Nat.lt_succ_self _
  · exact Nat.lt_succ_self _
  · exact Nat.lt_succ_of_le (length_bracket_le t)
  · exact Nat.lt_succ_self _

/-- Whether some text that a text ends in, itself and the empty one included, satisfies `p`. -/
def anyEnd (p : Text → Bool) : Text → Bool
  | [] => p []
  | c :: t => p (c :: t) || anyEnd p t

/-- Whether a name consists of what the parts stand for. -/
def accepts : List WildcardPart → Text → Bool
  | [], name => name.isEmpty
  | .anyText :: parts, name => anyEnd (accepts parts) name
  | .anyChar :: parts, name => match name with
    | [] => false
    | _ :: name => accepts parts name
  | .oneOf negated ranges :: parts, name => match name with
    | [] => false
    | c :: name =>
      ranges.any (fun range => range.1 ≤ c && c ≤ range.2) != negated && accepts parts name
  | .exactly d :: parts, name => match name with
    | [] => false
    | c :: name => c == d && accepts parts name

/-- Whether a text has a wildcard in it. -/
def occursIn (t : Text) : Bool := t.any fun c => c == '*' || c == '?' || c == '['

/-- A name that starts with a dot. -/
def isHidden (name : Text) : Bool := name.head? == some '.'

/-- Whether a pattern stands for a name. Hidden names are meant only by patterns that start with a
dot themselves. -/
def standsFor (pattern name : Text) : Bool :=
  (isHidden pattern || !isHidden name) && accepts (parts pattern) name

end Wildcard

end Scoresheet
