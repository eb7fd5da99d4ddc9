import Scoresheet.Text.Basic

/-!
# Replacing parts of a text

Occurrences are found from left to right and do not overlap; what has been put in is not looked at
again.
-/

namespace Scoresheet.Text

/-- Replaces parts of a text from left to right. Where `rule` applies it gives the text to put in
and the number of characters that it stands for; the first of these is passed over in any case.
`skip` counts characters that have been replaced already. -/
def substitute (rule : Text → Option (Text × Nat)) (skip : Nat) : Text → Text
  | [] => []
  | c :: cs => match skip with
    | n + 1 => substitute rule n cs
    | 0 => match rule (c :: cs) with
      | some (new, consumed) => new ++ substitute rule (consumed - 1) cs
      | none => c :: substitute rule 0 cs

/-- The text with each occurrence of `old` replaced by `new`. -/
def replaceAll (old new : Text) (t : Text) : Text :=
  substitute (fun t => if old.isPrefixOf t then some (new, old.length) else none) 0 t

/-- The text after replacing one pair after another. -/
def replaceEach (pairs : List (String × String)) (t : Text) : Text :=
  pairs.foldl (fun t pair => replaceAll pair.1.toList pair.2.toList t) t

/-- What a reader finds at the first place where it finds something. -/
def search {α : Type} (read : Text → Option α) : Text → Option α
  | [] => none
  | c :: cs => match read (c :: cs) with
    | some a => some a
    | none => search read cs

/-- Whether a text holds another as a part. -/
def holds (part : String) (t : Text) : Bool :=
  (search (fun t => if part.toList.isPrefixOf t then some () else none) t).isSome

end Scoresheet.Text
