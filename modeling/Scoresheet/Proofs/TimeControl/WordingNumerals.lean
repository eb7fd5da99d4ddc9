import Scoresheet.Proofs.Text.Replacing
import Scoresheet.Proofs.TimeControl.Counts
import Scoresheet.TimeControl.FreeText

/-!
# The numerals of informal wordings

Each way of understanding a wording takes numerals out of it. They are parts of the wording
(`AreParts`), whose letters are made small before, so none of them has a longer run of digits than the
wording itself.
-/

namespace Scoresheet

open Text

namespace TimeControl

/-! ## What readers give -/

section Gives

variable {α β : Type} {P : α → Prop} {Q : β → Prop} {r : Option α} {f : α → Option β}

/-- Whatever a reader gives has a property. -/
def Gives (P : α → Prop) (r : Option α) : Prop := ∀ a, r = some a → P a

theorem gives_some {a : α} (h : P a) : Gives P (some a) := by
  intro b hb
  rwa [← Option.some.inj hb]

theorem gives_none : Gives P none := by
  intro a h
  simp at h

theorem Gives.mono {P' : α → Prop} (hr : Gives P r) (h : ∀ a, P a → P' a) : Gives P' r :=
  fun a ha => h a (hr a ha)

theorem Gives.bind (hr : Gives P r) (hf : ∀ a, P a → Gives Q (f a)) : Gives Q (r >>= f) := by
  intro b hb
  obtain ⟨a, ha, hb⟩ := Option.bind_eq_some_iff.1 hb
  exact hf a (hr a ha) b hb

/-- What is read between two numerals and only has to be there. -/
theorem gives_bind (hf : ∀ a, Gives Q (f a)) : Gives Q (r >>= f) := by
  intro b hb
  obtain ⟨a, _, hb⟩ := Option.bind_eq_some_iff.1 hb
  exact hf a b hb

/-- What is read in one of two ways before the same continuation. -/
theorem gives_ite_bind {c : Prop} [Decidable c] {r' : Option α} (hr : Gives P r) (hr' : Gives P r')
    (hf : ∀ a, P a → Gives Q (f a)) : Gives Q (if c then r >>= f else r' >>= f) := by
  split
  · exact hr.bind hf
  · exact hr'.bind hf

theorem Gives.map {g : α → β} (hr : Gives P r) (hg : ∀ a, P a → Q (g a)) : Gives Q (r.map g) := by
  intro b hb
  obtain ⟨a, ha, rfl⟩ := Option.map_eq_some_iff.1 hb
  exact hg a (hr a ha)

theorem gives_map {g : α → β} (hg : ∀ a, Q (g a)) : Gives Q (r.map g) := by
  intro b hb
  obtain ⟨a, _, rfl⟩ := Option.map_eq_some_iff.1 hb
  exact hg a

theorem Gives.or {r' : Option α} (hr : Gives P r) (hr' : Gives P r') : Gives P (r.or r') := by
  intro a ha
  rcases Option.or_eq_some_iff.1 ha with ha | ⟨_, ha⟩
  · exact hr a ha
  · exact hr' a ha

end Gives

/-! ## Parts of a text -/

variable {t u : Text}

/-- A numeral that is a part of a text, and an end of the text behind it. -/
def IsCutFrom (t : Text) (cut : Text × Text) : Prop := cut.1 <:+: t ∧ cut.2 <:+ t

theorem gives_digits? (h : u <:+ t) : Gives (IsCutFrom t) (digits? u) := by
  intro cut hcut
  unfold digits? at hcut
  dsimp only at hcut
  split at hcut
  · simp at hcut
  · rw [← Option.some.inj hcut]
    have hdigits : u.takeWhile isDecimalDigit <:+: u := (List.takeWhile_prefix _).isInfix
    exact ⟨hdigits.trans h.isInfix, (List.dropWhile_suffix _).trans h⟩

theorem suffix_trimLeft (h : u <:+ t) : trimLeft u <:+ t := (List.dropWhile_suffix _).trans h

theorem gives_number? (h : u <:+ t) : Gives (IsCutFrom t) (number? u) :=
  gives_digits? (suffix_trimLeft h)

theorem suffix_of_isPrefixOf? {w rest : Text} (h : u <:+ t) (hrest : w.isPrefixOf? u = some rest) :
    rest <:+ t := by
  have happend : w ++ rest = u := List.isPrefixOf?_eq_some_iff_append_eq.1 hrest
  rw [← happend] at h
  exact (List.suffix_append w rest).trans h

theorem gives_word? (w : String) (h : u <:+ t) : Gives (· <:+ t) (word? w u) := by
  intro rest hrest
  exact suffix_of_isPrefixOf? (suffix_trimLeft h) hrest

theorem gives_oneOf? (ws : List String) (h : u <:+ t) : Gives (· <:+ t) (oneOf? ws u) := by
  intro rest hrest
  obtain ⟨w, _, hrest⟩ := List.exists_of_findSome?_eq_some hrest
  exact suffix_of_isPrefixOf? (suffix_trimLeft h) hrest

theorem suffix_maybe {read : Text → Option Text} (hread : Gives (· <:+ t) (read u)) (h : u <:+ t) :
    maybe read u <:+ t := by
  unfold maybe
  cases hr : read u with
  | none => exact h
  | some rest => exact hread rest hr

/-! ## Numerals of the templates -/

/-- Texts that are all parts of a text. -/
def AreParts (t : Text) (ns : List Text) : Prop := ∀ n ∈ ns, n <:+: t

theorem gives_apostrophePerMove? (t : Text) : Gives (AreParts t) (apostrophePerMove? t) := by
  refine (gives_number? List.suffix_rfl).bind fun (base, t₁) ⟨hbase, h₁⟩ => ?_
  refine (gives_word? "'" h₁).bind fun t₂ h₂ => ?_
  refine (gives_word? "+" h₂).bind fun t₃ h₃ => ?_
  refine (gives_number? h₃).bind fun (increment, t₄) ⟨hincrement, _⟩ => ?_
  refine gives_bind fun _ => gives_bind fun _ => gives_bind fun _ => gives_bind fun _ => ?_
  exact gives_some (by simp [AreParts, hbase, hincrement])

theorem gives_stageAndRest? (needsWord : Bool) (t : Text) :
    Gives (fun r => AreParts t [r.1.1, r.1.2.1, r.1.2.2] ∧ r.2 <:+ t)
      (stageAndRest? needsWord t) := by
  refine (gives_number? List.suffix_rfl).bind fun (base, t₁) ⟨hbase, h₁⟩ => ?_
  refine (gives_word? "'" h₁).bind fun t₂ h₂ => ?_
  refine (gives_word? "/" h₂).bind fun t₃ h₃ => ?_
  refine (gives_number? h₃).bind fun (moves, t₄) ⟨hmoves, h₄⟩ => ?_
  -- The word for moves is passed over if it may be missing, and what follows is read in either case.
  have hword := gives_oneOf? ["moves", "move", "m"] h₄
  refine gives_ite_bind hword (gives_some (suffix_maybe hword h₄)) fun t₅ h₅ => ?_
  refine (gives_oneOf? _ h₅).bind fun t₆ h₆ => ?_
  refine (gives_number? h₆).bind fun (rest, t₇) ⟨hrest, h₇⟩ => ?_
  refine (gives_word? "'" h₇).bind fun t₈ h₈ => ?_
  exact gives_some ⟨by simp [AreParts, hbase, hmoves, hrest], h₈⟩

theorem gives_stageRestIncrement? (t : Text) :
    Gives (fun r => AreParts t r.1) (stageRestIncrement? t) := by
  refine (gives_stageAndRest? false t).bind fun ((base, moves, rest), t₁) ⟨hparts, h₁⟩ => ?_
  refine (gives_word? "/" h₁).bind fun t₂ h₂ => ?_
  refine (gives_oneOf? _ h₂).bind fun t₃ h₃ => ?_
  refine (gives_oneOf? _ h₃).bind fun t₄ h₄ => ?_
  refine (gives_number? h₄).bind fun (increment, t₅) ⟨hincrement, _⟩ => ?_
  refine gives_some ?_
  simp only [AreParts, List.forall_mem_cons] at hparts ⊢
  exact ⟨hparts.1, hparts.2.1, hparts.2.2.1, hincrement, by simp⟩

theorem gives_compactWithMove? (t : Text) : Gives (AreParts t) (compactWithMove? t) := by
  refine (gives_stageRestIncrement? t).bind fun (numerals, t₁) hnumerals => ?_
  exact gives_bind fun _ => gives_bind fun _ => gives_bind fun _ => gives_some hnumerals

theorem gives_compactToEnd? (t : Text) : Gives (AreParts t) (compactToEnd? t) := by
  refine (gives_stageRestIncrement? t).bind fun (numerals, t₁) hnumerals => ?_
  exact gives_bind fun _ => gives_bind fun _ => gives_some hnumerals

theorem gives_compactBonus? (t : Text) : Gives (AreParts t) (compactBonus? t) := by
  refine (gives_stageAndRest? true t).bind fun ((base, moves, rest), t₁) ⟨hparts, h₁⟩ => ?_
  refine (gives_oneOf? _ h₁).bind fun t₂ h₂ => ?_
  refine (gives_number? h₂).bind fun (increment, t₃) ⟨hincrement, _⟩ => ?_
  refine gives_bind fun _ => gives_bind fun _ => gives_bind fun _ => gives_some ?_
  simp only [AreParts, List.forall_mem_cons] at hparts ⊢
  exact ⟨hparts.1, hparts.2.1, hparts.2.2.1, hincrement, by simp⟩

theorem gives_fideAdditional? (t : Text) : Gives (AreParts t) (fideAdditional? t) := by
  refine (gives_number? List.suffix_rfl).bind fun (base, t₁) ⟨hbase, h₁⟩ => ?_
  refine (gives_oneOf? _ h₁).bind fun t₂ h₂ => ?_
  refine (gives_word? "+" h₂).bind fun t₃ h₃ => ?_
  refine (gives_number? h₃).bind fun (increment, t₄) ⟨hincrement, h₄⟩ => ?_
  refine (gives_oneOf? _ h₄).bind fun t₅ h₅ => ?_
  refine (gives_word? "additional" h₅).bind fun t₆ h₆ => ?_
  refine (gives_word? "+" h₆).bind fun t₇ h₇ => ?_
  refine (gives_number? h₇).bind fun (rest, t₈) ⟨hrest, _⟩ => ?_
  refine gives_bind fun _ => gives_bind fun _ => gives_bind fun _ => gives_bind fun _ =>
    gives_bind fun _ => ?_
  exact gives_some (by simp [AreParts, hbase, hincrement, hrest])

theorem gives_triplePlus? (t : Text) : Gives (AreParts t) (triplePlus? t) := by
  refine (gives_number? List.suffix_rfl).bind fun (base, t₁) ⟨hbase, h₁⟩ => ?_
  refine (gives_word? "+" h₁).bind fun t₂ h₂ => ?_
  refine (gives_number? h₂).bind fun (rest, t₃) ⟨hrest, h₃⟩ => ?_
  refine (gives_word? "+" h₃).bind fun t₄ h₄ => ?_
  refine (gives_number? h₄).bind fun (increment, t₅) ⟨hincrement, _⟩ => ?_
  refine gives_bind fun _ => gives_bind fun _ => ?_
  exact gives_some (by simp [AreParts, hbase, hrest, hincrement])

theorem gives_twoStageSlash? (t : Text) : Gives (AreParts t) (twoStageSlash? t) := by
  refine (gives_number? List.suffix_rfl).bind fun (first, t₁) ⟨hfirst, h₁⟩ => ?_
  refine (gives_word? "+" h₁).bind fun t₂ h₂ => ?_
  refine (gives_number? h₂).bind fun (firstIncrement, t₃) ⟨hfirstIncrement, h₃⟩ => ?_
  refine (gives_word? "/" h₃).bind fun t₄ h₄ => ?_
  refine (gives_number? h₄).bind fun (second, t₅) ⟨hsecond, h₅⟩ => ?_
  refine (gives_word? "+" h₅).bind fun t₆ h₆ => ?_
  refine (gives_number? h₆).bind fun (secondIncrement, t₇) ⟨hsecondIncrement, _⟩ => ?_
  refine gives_bind fun _ => ?_
  exact gives_some (by simp [AreParts, hfirst, hfirstIncrement, hsecond, hsecondIncrement])

theorem gives_heading? (t : Text) : Gives (· <:+ t) (heading? t) := by
  intro rest h
  unfold heading? at h
  split at h
  · rename_i hrest
    rw [← Option.some.inj h]
    exact (hrest ▸ List.suffix_cons ':' _ : _ <:+ t.dropWhile _).trans (List.dropWhile_suffix _)
  · simp at h

theorem gives_compactMinuteSecond? (t : Text) : Gives (AreParts t) (compactMinuteSecond? t) := by
  have hheading := suffix_maybe (gives_heading? t) List.suffix_rfl
  refine (gives_number? hheading).bind fun (base, t₁) ⟨hbase, h₁⟩ => ?_
  have hunit := suffix_maybe (gives_oneOf? minuteUnits h₁) h₁
  refine (gives_word? "+" hunit).bind fun t₂ h₂ => ?_
  refine (gives_number? h₂).bind fun (increment, t₃) ⟨hincrement, _⟩ => ?_
  refine gives_bind fun _ => ?_
  exact gives_some (by simp [AreParts, hbase, hincrement])

/-- What follows the minutes of a clock may be a fraction, which is passed over. -/
theorem suffix_afterFraction (cs : Text) :
    ((digits? cs).map Prod.snd).getD ('.' :: cs) <:+ '.' :: cs := by
  cases hdigits : digits? cs with
  | none => exact List.suffix_rfl
  | some cut => exact (gives_digits? List.suffix_rfl cut hdigits).2.trans (List.suffix_cons _ _)

theorem gives_clockMinutes? (h : u <:+ t) : Gives (IsCutFrom t) (clockMinutes? u) := by
  have htrim := suffix_trimLeft h
  intro cut hcut
  unfold clockMinutes? at hcut
  dsimp only at hcut
  split at hcut
  · rename_i c d cs heq
    rw [heq] at htrim
    split at hcut
    · rw [← Option.some.inj hcut]
      have hdigits : [c, d] <:+: c :: d :: cs := ⟨[], cs, rfl⟩
      have hrest : cs <:+ t := List.IsSuffix.trans ⟨[c, d], rfl⟩ htrim
      refine ⟨hdigits.trans htrim.isInfix, ?_⟩
      dsimp only
      split
      · exact (suffix_afterFraction _).trans hrest
      · exact hrest
    · split at hcut
      · rw [← Option.some.inj hcut]
        have hdigit : [c] <:+: c :: d :: cs := ⟨[], d :: cs, rfl⟩
        have hrest : d :: cs <:+ t := (List.suffix_cons c _).trans htrim
        refine ⟨hdigit.trans htrim.isInfix, ?_⟩
        dsimp only
        split
        · rename_i hdot
          rw [hdot] at hrest
          exact (suffix_afterFraction _).trans hrest
        · exact hrest
      · simp at hcut
  · rename_i c heq
    rw [heq] at htrim
    split at hcut
    · rw [← Option.some.inj hcut]
      exact ⟨htrim.isInfix, List.nil_suffix⟩
    · simp at hcut
  · simp at hcut

theorem gives_clockStyle? (t : Text) : Gives (AreParts t) (clockStyle? t) := by
  refine (gives_number? List.suffix_rfl).bind fun (hours, t₁) ⟨hhours, h₁⟩ => ?_
  refine (gives_word? ":" h₁).bind fun t₂ h₂ => ?_
  refine (gives_clockMinutes? h₂).bind fun (minutes, t₃) ⟨hminutes, h₃⟩ => ?_
  refine (gives_word? "+" h₃).bind fun t₄ h₄ => ?_
  refine (gives_number? h₄).bind fun (increment, t₅) ⟨hincrement, _⟩ => ?_
  refine gives_bind fun _ => ?_
  exact gives_some (by simp [AreParts, hhours, hminutes, hincrement])

/-! ## Numerals of a game -/

theorem patched_mergePlus (t : Text) : Patched t (mergePlus t) := by
  fun_induction mergePlus t with
  | case1 cs ih => exact ih.drop_head (by decide)
  | case2 c cs _ ih => exact ih.keep c
  | case3 => exact .nil

theorem hasLongRun_of_afterGame? {rest : Text} (h : afterGame? t = some rest)
    (hlong : HasLongRun rest) : HasLongRun t := by
  unfold afterGame? at h
  dsimp only at h
  obtain ⟨start, hstart, rfl⟩ := Option.map_eq_some_iff.1 h
  have hsuffix : start <:+ lower t := by
    rcases Option.or_eq_some_iff.1 hstart with hstart | ⟨_, hstart⟩ <;>
      exact suffix_of_isPrefixOf? List.suffix_rfl hstart
  have hmerged := (patched_mergePlus _).hasLongRun (hlong.mono (isInfix_trim _))
  have hspaced := hasLongRun_of_replaceEach (by decide) hmerged
  have hreplaced := hasLongRun_of_replaceEach (by decide) hspaced
  have hafterSign := hreplaced.mono (isInfix_trim _)
  have hafterGame : HasLongRun (trimLeft start) := by
    split at hafterSign
    · rename_i heq
      rw [heq]
      exact hafterSign.mono (List.suffix_cons _ _).isInfix
    · rename_i heq
      rw [heq]
      exact hafterSign.mono (List.suffix_cons _ _).isInfix
    · exact hafterSign
  exact (patched_lower t).hasLongRun (hafterGame.mono (suffix_trimLeft hsuffix).isInfix)

theorem gives_gameNumerals? (t : Text) :
    Gives (fun r => ∀ n ∈ r.1 :: r.2.toList, HasLongRun n → HasLongRun t) (gameNumerals? t) := by
  refine Gives.bind (r := afterGame? t) (fun _ h => h) fun rest hrest => ?_
  refine Gives.mono (P := fun r => AreParts rest (r.1 :: r.2.toList)) ?_ ?_
  · refine (gives_digits? List.suffix_rfl).bind fun (base, t₁) ⟨hbase, h₁⟩ => ?_
    have hplus := gives_word? "+" h₁
    dsimp only
    split
    · exact gives_map fun _ => by simpa [AreParts] using hbase
    · rename_i t₂ heq
      refine (gives_number? (hplus t₂ heq)).bind fun (increment, t₃) ⟨hincrement, _⟩ => ?_
      exact gives_map fun _ => by simp [AreParts, hbase, hincrement]
  · intro r hparts n hn hlong
    exact hasLongRun_of_afterGame? hrest (hlong.mono (hparts n hn))

/-! ## Numerals with apostrophes -/

theorem infix_cutAt (sep : Char) (t : Text) :
    (cutAt sep t).1 <:+: t ∧ ∀ rest ∈ (cutAt sep t).2, rest <:+: t := by
  unfold cutAt
  split
  · exact ⟨List.infix_rfl, by simp⟩
  · rename_i c rest heq
    refine ⟨(List.takeWhile_prefix _).isInfix, fun u hu => ?_⟩
    have hrest : rest <:+ t.dropWhile (· != sep) := heq ▸ List.suffix_cons c rest
    rw [← Option.some.inj (Option.mem_def.1 hu)]
    exact (hrest.trans (List.dropWhile_suffix _)).isInfix

/-- A text without the plus sign at its start. -/
def withoutPlus : Text → Text
  | '+' :: cs => cs
  | cs => cs

theorem suffix_withoutPlus (t : Text) : withoutPlus t <:+ t := by
  unfold withoutPlus
  split
  · exact List.suffix_cons _ _
  · exact List.suffix_rfl

/-- The numerals of minutes and of the seconds behind them, which may be missing. -/
def minutesAndSeconds (minutes seconds : Text) : List Text :=
  if seconds.isEmpty then [minutes] else [minutes, seconds]

/-- The numerals of `3'+2''`, `5'` or `30''`. -/
def apostropheNumerals? (t : Text) : Option (List Text) :=
  match t.reverse with
  | '\'' :: '\'' :: reversed =>
    match cutAt '\'' reversed.reverse with
    | (minutes, some seconds) => some (minutesAndSeconds minutes (withoutPlus seconds))
    | (seconds, none) => some [seconds]
  | '\'' :: reversed => some [reversed.reverse]
  | _ => none

theorem gives_apostropheNumerals? (t : Text) : Gives (AreParts t) (apostropheNumerals? t) := by
  have hparts : ∀ (signs : Text) {reversed : Text}, t.reverse = signs ++ reversed →
      reversed.reverse <:+: t := by
    intro signs reversed h
    rw [← List.reverse_infix, List.reverse_reverse, h]
    exact (List.suffix_append signs reversed).isInfix
  unfold apostropheNumerals?
  split
  · rename_i reversed heq
    have hreversed := hparts ['\'', '\''] heq
    have hcut := infix_cutAt '\'' reversed.reverse
    split
    · rename_i minutes seconds hsplit
      rw [hsplit] at hcut
      have hminutes := hcut.1.trans hreversed
      have hseconds := (hcut.2 seconds rfl).trans hreversed
      have hbehind := (suffix_withoutPlus seconds).isInfix.trans hseconds
      refine gives_some ?_
      unfold minutesAndSeconds
      split
      · simpa [AreParts] using hminutes
      · simpa [AreParts] using And.intro hminutes hbehind
    · rename_i seconds hsplit
      rw [hsplit] at hcut
      exact gives_some (by simpa [AreParts] using hcut.1.trans hreversed)
  · rename_i reversed _ heq
    exact gives_some (by simpa [AreParts] using hparts ['\''] heq)
  · exact gives_none

/-! ## Numerals of free text -/

/-- A numeral of a text is a part of it, and what follows it is an end of the text. -/
theorem isCutFrom_of_mem_numeralsOf {afterDigit : Bool} {cut : Text × Text}
    (h : cut ∈ numeralsOf afterDigit t) : IsCutFrom t cut := by
  have hlater : ∀ {c : Char} {cs : Text}, IsCutFrom cs cut → IsCutFrom (c :: cs) cut :=
    fun ⟨hnumeral, hrest⟩ =>
      ⟨hnumeral.trans (List.suffix_cons _ _).isInfix, hrest.trans (List.suffix_cons _ _)⟩
  induction t generalizing afterDigit with
  | nil => simp [numeralsOf] at h
  | cons c cs ih =>
    rw [numeralsOf] at h
    split at h
    · rcases List.mem_append.1 h with h | h
      · split at h
        · simp at h
        · exact gives_digits? List.suffix_rfl cut (Option.mem_toList.1 h)
      · exact hlater (ih h)
    · exact hlater (ih h)

theorem gives_search {α : Type} {P : α → Prop} {read : Text → Option α}
    (h : ∀ u, u <:+ t → Gives P (read u)) : Gives P (search read t) := by
  induction t with
  | nil => exact gives_none
  | cons c cs ih =>
    intro a ha
    rw [search] at ha
    split at ha
    · rename_i b hb
      rw [← Option.some.inj ha]
      exact h _ List.suffix_rfl b hb
    · exact ih (fun u hu => h u (hu.trans (List.suffix_cons c cs))) a ha

theorem gives_forMoves? (h : u <:+ t) : Gives (· <:+: t) (forMoves? u) := by
  refine (gives_oneOf? _ h).bind fun t₁ h₁ => ?_
  have hfor := gives_word? "for" h₁
  split
  · rename_i t₂ heq
    refine (gives_number? (hfor t₂ heq)).bind fun (moves, t₃) ⟨hmoves, _⟩ => ?_
    exact gives_map fun _ => hmoves
  · refine (gives_word? "/" h₁).bind fun t₂ h₂ => ?_
    exact (gives_number? h₂).map fun _ hcut => hcut.1

theorem gives_firstStage? (t : Text) : Gives (fun r => AreParts t [r.1, r.2]) (firstStage? t) := by
  intro r hr
  obtain ⟨cut, hcut, hr⟩ := List.exists_of_findSome?_eq_some hr
  obtain ⟨hminutes, hrest⟩ := isCutFrom_of_mem_numeralsOf hcut
  obtain ⟨moves, hmoves, rfl⟩ := Option.map_eq_some_iff.1 hr
  simpa [AreParts] using And.intro hminutes (gives_forMoves? hrest moves hmoves)

theorem gives_another? (h : u <:+ t) : Gives (· <:+ t) (another? u) := by
  intro rest hrest
  unfold another? at hrest
  split at hrest
  · rw [← Option.some.inj hrest]
    exact (List.suffix_cons _ _).trans h
  · rw [← Option.some.inj hrest]
    exact (List.suffix_cons _ _).trans h
  · obtain ⟨after, hafter, hrest⟩ := Option.bind_eq_some_iff.1 hrest
    split at hrest
    · rw [← Option.some.inj hrest]
      exact suffix_of_isPrefixOf? h hafter
    · simp at hrest

theorem gives_restHere? (t : Text) : Gives (· <:+: t) (search restHere? t) := by
  refine gives_search fun u hu => ?_
  refine (gives_another? hu).bind fun t₁ h₁ => ?_
  refine (gives_number? h₁).bind fun (minutes, t₂) ⟨hminutes, _⟩ => ?_
  exact gives_map fun _ => hminutes

theorem gives_incrementHere? (t : Text) :
    Gives (fun r => r.1 <:+: t) (search incrementHere? t) := by
  refine gives_search fun u hu => ?_
  refine (gives_digits? hu).bind fun (seconds, t₁) ⟨hseconds, _⟩ => ?_
  exact gives_bind fun _ => gives_map fun _ => hseconds

theorem hasLongRun_of_withoutIncrements (h : HasLongRun (withoutIncrements t)) : HasLongRun t := by
  refine (patched_substitute ?_ 0 t).hasLongRun h
  intro u new n hrule
  obtain ⟨cut, _, hcut⟩ := Option.map_eq_some_iff.1 hrule
  rw [← (Prod.mk.inj hcut).1]
  decide

theorem areParts_numeralsWith (units : List String) (t : Text) :
    AreParts t (numeralsWith units t) := by
  intro n hn
  obtain ⟨cut, hcut, h⟩ := List.mem_filterMap.1 hn
  obtain ⟨after, _, h⟩ := Option.bind_eq_some_iff.1 h
  obtain ⟨_, _, rfl⟩ := Option.map_eq_some_iff.1 h
  exact (isCutFrom_of_mem_numeralsOf hcut).1

end TimeControl

end Scoresheet
