import Scoresheet.Pgn.Game
import Scoresheet.Proofs.Text.Lines

/-!
# Printed tag pairs are read back

The printer of tag pairs beside the reader: a pair is printed as a group `[Key "value"]` with a
backslash before each quote and each backslash of the value, and a line holds one or more groups
with any white space between them. `readTags_append` says that printed lines give back their pairs
in order, whatever lines follow.
-/

namespace Scoresheet.Pgn

open Text

namespace Tag

/-! ## One group -/

/-- A value as it is written between quotes. -/
def escape : Text → Text
  | [] => []
  | c :: cs => if c = '"' ∨ c = '\\' then '\\' :: c :: escape cs else c :: escape cs

/-- The group that holds a tag pair. -/
def toText (tag : Tag) : Text :=
  '[' :: tag.key ++ ' ' :: '"' :: escape tag.value ++ ['"', ']']

/-- The tag pairs that can be printed: the key is made of key characters, and the value does not
reach over the line. -/
structure IsPrintable (tag : Tag) : Prop where
  isKeyStart : ∃ k ks, tag.key = k :: ks ∧ isKeyStart k = true
  isKeyChar : ∀ c ∈ tag.key, isKeyChar c = true
  value_line : '\n' ∉ tag.value

theorem readValue?_escape (v rest : Text) :
    readValue? (escape v ++ '"' :: rest) = some (v, rest) := by
  induction v with
  | nil => rw [escape, List.nil_append, readValue?]
  | cons c v ih =>
    rw [escape]
    split
    · rename_i h
      have hp : unescapePair c = [c] := by
        rcases h with rfl | rfl <;> rfl
      rw [List.cons_append, List.cons_append, readValue?, ih, Option.map_some, hp]
      rfl
    · rename_i h
      rw [not_or] at h
      rw [List.cons_append, readValue?, ih]
      · rfl
      · exact h.1
      · exact fun hc => absurd hc h.2
      · exact fun _ _ hc => absurd hc h.2

theorem not_isBlank_of_isKeyStart {c : Char} (h : isKeyStart c = true) : isBlank c = false := by
  simp only [isKeyStart, Bool.or_eq_true, Bool.and_eq_true, decide_eq_true_eq, beq_iff_eq,
    le_iff_toNat_le] at h
  have visible : ∀ {a b : Char}, 32 < a.toNat → b.toNat < 0x80 →
      a.toNat ≤ c.toNat ∧ c.toNat ≤ b.toNat → isBlank c = false :=
    fun ha hb hc => not_isBlank_of_ascii (Nat.lt_of_lt_of_le ha hc.1) (Nat.lt_of_le_of_lt hc.2 hb)
  rcases h with ((h | h) | h) | rfl
  · exact visible (by decide) (by decide) h
  · exact visible (by decide) (by decide) h
  · exact visible (by decide) (by decide) h
  · decide

theorem readKey?_toText {tag : Tag} (h : tag.IsPrintable) (rest : Text) :
    readKey? ('[' :: tag.key ++ ' ' :: '"' :: rest) = some (tag.key, rest) := by
  obtain ⟨k, ks, hkey, hk⟩ := h.isKeyStart
  have hspace : Tag.isKeyChar ' ' = false := by decide
  have htrim : trimLeft (tag.key ++ ' ' :: '"' :: rest) = tag.key ++ ' ' :: '"' :: rest := by
    rw [hkey]
    exact trimLeft_cons_of_not_isBlank (not_isBlank_of_isKeyStart hk) _
  have htake : (tag.key ++ ' ' :: '"' :: rest).takeWhile Tag.isKeyChar = tag.key := by
    rw [List.takeWhile_append_of_pos h.isKeyChar, List.takeWhile_cons_of_neg (by simp [hspace]),
      List.append_nil]
  have hdrop : (tag.key ++ ' ' :: '"' :: rest).dropWhile Tag.isKeyChar = ' ' :: '"' :: rest := by
    rw [List.dropWhile_append_of_pos h.isKeyChar, List.dropWhile_cons_of_neg (by simp [hspace])]
  have hblank : isBlank ' ' = true := by decide
  rw [List.cons_append, readKey?]
  simp only [htrim, htake, hdrop]
  rw [hkey]
  simp only [List.head?_cons, hk, hblank, Bool.and_self, if_true]
  rw [trimLeft_cons_of_not_isBlank (show isBlank '"' = false from by decide)]
  rfl

/-- **A printed group is read back.** -/
theorem read?_toText {tag : Tag} (h : tag.IsPrintable) (rest : Text) :
    read? (tag.toText ++ rest) = some (tag, rest) := by
  have htext : tag.toText ++ rest
      = '[' :: tag.key ++ ' ' :: '"' :: (escape tag.value ++ '"' :: ']' :: rest) := by
    simp [toText]
  have hclose : readClose? (']' :: rest) = some rest := by
    rw [readClose?, trimLeft_cons_of_not_isBlank (show isBlank ']' = false from by decide)]
    rfl
  rw [htext, read?, readKey?_toText h]
  simp only [readValue?_escape, hclose]
  rfl

theorem newline_not_mem_escape {v : Text} (h : '\n' ∉ v) : '\n' ∉ escape v := by
  induction v with
  | nil => exact h
  | cons c v ih =>
    rw [List.mem_cons, not_or] at h
    rw [escape]
    split
    · simp [h.1, ih h.2]
    · simp [h.1, ih h.2]

theorem newline_not_mem_toText {tag : Tag} (h : tag.IsPrintable) : '\n' ∉ tag.toText := by
  have hkey : '\n' ∉ tag.key := fun hc => absurd (h.isKeyChar _ hc) (by decide)
  simp [toText, hkey, newline_not_mem_escape h.value_line]

end Tag

/-! ## A line of groups -/

/-- A group of a tag line with the white space before it. -/
structure TagGroup where
  gap : Text
  tag : Tag
  isBlankText_gap : isBlankText gap = true
  gap_line : '\n' ∉ gap
  isPrintable : tag.IsPrintable

namespace TagGroup

def toText (g : TagGroup) : Text := g.gap ++ g.tag.toText

theorem newline_not_mem_toText (g : TagGroup) : '\n' ∉ g.toText := by
  rw [toText, List.mem_append, not_or]
  exact ⟨g.gap_line, Tag.newline_not_mem_toText g.isPrintable⟩

end TagGroup

/-- A line of one or more groups. -/
structure TagLine where
  first : TagGroup
  more : List TagGroup

namespace TagLine

def groups (l : TagLine) : List TagGroup := l.first :: l.more

def tags (l : TagLine) : List Tag := l.groups.map TagGroup.tag

/-- The line without the line feed at its end. -/
def toText (l : TagLine) : Text := l.groups.flatMap TagGroup.toText

end TagLine

theorem trimLeft_toText (tag : Tag) (t : Text) : trimLeft (tag.toText ++ t) = tag.toText ++ t :=
  trimLeft_cons_of_not_isBlank (by decide) _

/-- A group is read before the groups after it. -/
theorem readGroups?_of_trimLeft {t rest : Text} {tag : Tag} (h : tag.IsPrintable)
    (ht : trimLeft t = tag.toText ++ rest) :
    Tag.readGroups? t = (Tag.readGroups? rest).map (tag :: ·) := by
  have hr := Tag.read?_toText h rest
  rw [Tag.readGroups?]
  split
  · rename_i h0
    rw [ht] at h0
    simp [Tag.toText] at h0
  · rename_i c cs hc
    rw [← ht, hc] at hr
    split
    · rename_i hn
      rw [hr] at hn
      simp at hn
    · rename_i tag' rest' hs
      rw [hr, Option.some.injEq, Prod.mk.injEq] at hs
      rw [hs.1, hs.2]

/-- Printed groups are read back. -/
theorem readGroups?_flatMap : ∀ gs : List TagGroup,
    Tag.readGroups? (gs.flatMap TagGroup.toText) = some (gs.map TagGroup.tag)
  | [] => by
    rw [Tag.readGroups?]
    rfl
  | g :: gs => by
    have ht : trimLeft ((g :: gs).flatMap TagGroup.toText)
        = g.tag.toText ++ gs.flatMap TagGroup.toText := by
      rw [List.flatMap_cons, TagGroup.toText, List.append_assoc, trimLeft_append g.isBlankText_gap,
        trimLeft_toText]
    rw [readGroups?_of_trimLeft g.isPrintable ht, readGroups?_flatMap gs]
    rfl

namespace TagLine

theorem newline_not_mem_toText (l : TagLine) : '\n' ∉ l.toText := by
  rw [toText, List.mem_flatMap]
  rintro ⟨g, _, hg⟩
  exact g.newline_not_mem_toText hg

/-- Groups end with a bracket. -/
theorem exists_append_flatMap (gs : List TagGroup) {t u : Text} (ht : t = u ++ [']']) :
    ∃ v, t ++ gs.flatMap TagGroup.toText = v ++ [']'] := by
  induction gs generalizing t u with
  | nil => exact ⟨u, by simp [ht]⟩
  | cons g gs ih =>
    have hg : t ++ g.toText = t ++ (g.gap ++ ('[' :: g.tag.key ++ ' ' :: '"' ::
        Tag.escape g.tag.value ++ ['"'])) ++ [']'] := by
      simp [TagGroup.toText, Tag.toText]
    obtain ⟨v, hv⟩ := ih hg
    exact ⟨v, by rw [List.flatMap_cons, ← List.append_assoc, hv]⟩

/-- A line of groups without the white space at its ends. -/
theorem trim_toText (l : TagLine) :
    trim (l.toText ++ ['\n']) = l.first.tag.toText ++ l.more.flatMap TagGroup.toText := by
  have htext : l.toText
      = l.first.gap ++ (l.first.tag.toText ++ l.more.flatMap TagGroup.toText) := by
    simp [toText, groups, TagGroup.toText]
  obtain ⟨v, hv⟩ := exists_append_flatMap l.more (t := l.first.tag.toText)
    (u := '[' :: l.first.tag.key ++ ' ' :: '"' :: Tag.escape l.first.tag.value ++ ['"'])
    (by simp [Tag.toText])
  have hleft : trimLeft (l.toText ++ ['\n'])
      = l.first.tag.toText ++ l.more.flatMap TagGroup.toText ++ ['\n'] := by
    rw [htext, List.append_assoc, trimLeft_append l.first.isBlankText_gap, List.append_assoc,
      trimLeft_toText]
  rw [trim, hleft, hv]
  exact trimRight_append (by decide) v (by decide)

theorem opensTag_toText (l : TagLine) (t : Text) : opensTag (l.toText ++ t) = true := by
  rw [opensTag, toText, groups, List.flatMap_cons, TagGroup.toText, List.append_assoc,
    List.append_assoc, trimLeft_append l.first.isBlankText_gap]
  rfl

theorem readLine?_toText (l : TagLine) :
    Tag.readLine? (trim (l.toText ++ ['\n'])) = some l.tags := by
  have hfirst : Tag.readGroups? (l.first.tag.toText ++ l.more.flatMap TagGroup.toText)
      = some l.tags := by
    rw [readGroups?_of_trimLeft l.first.isPrintable (trimLeft_toText _ _),
      readGroups?_flatMap l.more]
    rfl
  rw [trim_toText, Tag.readLine?, hfirst]

end TagLine

/-! ## The tag section -/

/-- Lines of groups, each with its line feed. -/
def tagText (ls : List TagLine) : Text := ls.flatMap fun l => l.toText ++ ['\n']

theorem lines_tagText (ls : List TagLine) (t : Text) :
    lines (tagText ls ++ t) = ls.map (fun l => l.toText ++ ['\n']) ++ lines t := by
  induction ls with
  | nil => rfl
  | cons l ls ih =>
    rw [tagText, List.flatMap_cons, List.append_assoc, List.append_assoc, List.singleton_append,
      lines_append_of_not_mem l.newline_not_mem_toText]
    exact congrArg _ ih

/-- **Printed tag lines give back their pairs in order**, whatever lines follow. -/
theorem readTags_append (ls : List TagLine) (lines : List Line) :
    readTags (ls.map (fun l => l.toText ++ ['\n']) ++ lines)
      = { readTags lines with tags := ls.flatMap TagLine.tags ++ (readTags lines).tags } := by
  induction ls with
  | nil => rfl
  | cons l ls ih =>
    rw [List.map_cons, List.cons_append, readTags, if_pos (l.opensTag_toText _)]
    simp only [l.readLine?_toText, ih, List.flatMap_cons, List.append_assoc]

end Scoresheet.Pgn
