import Scoresheet.Proofs.TimeControl.Guesses
import Scoresheet.Proofs.TimeControl.StandardForm

/-!
# Wordings that start with a numeral

On a text that starts with a numeral, each template takes the numeral off and goes on with what
stands behind it. Which templates fit is decided by the first signs there, so most are ruled out by
one of the conditions of `infer_numeral`.
-/

namespace Scoresheet

open Text

namespace TimeControl

/-! ## The numeral -/

/-- No digit follows. -/
def EndsNumeral (r : Text) : Prop := r.head?.any isDecimalDigit = false

variable {n : Numeral} {r : Text}

theorem takeWhile_dropWhile_numeral (n : Numeral) (hr : EndsNumeral r) :
    (n.text ++ r).takeWhile isDecimalDigit = n.text ∧
      (n.text ++ r).dropWhile isDecimalDigit = r := by
  have hdigits : ∀ c ∈ n.text, isDecimalDigit c = true :=
    fun _ hc => isDecimalDigit_of_isAsciiDigit (Numeral.isAsciiDigit_of_mem hc)
  have hrest : r.takeWhile isDecimalDigit = [] ∧ r.dropWhile isDecimalDigit = r := by
    cases r with
    | nil => exact ⟨rfl, rfl⟩
    | cons c r =>
      have hc : isDecimalDigit c = false := by simpa [EndsNumeral] using hr
      exact ⟨List.takeWhile_cons_of_neg (by simp [hc]), List.dropWhile_cons_of_neg (by simp [hc])⟩
  rw [List.takeWhile_append_of_pos hdigits, List.dropWhile_append_of_pos hdigits, hrest.1, hrest.2,
    List.append_nil]
  exact ⟨rfl, rfl⟩

/-- **A numeral is taken off** as far as its digits go. -/
theorem digits?_numeral (n : Numeral) (hr : EndsNumeral r) :
    digits? (n.text ++ r) = some (n.text, r) := by
  obtain ⟨htake, hdrop⟩ := takeWhile_dropWhile_numeral n hr
  unfold digits?
  rw [htake, hdrop]
  exact if_neg (by simpa using n.text_ne_nil)

theorem trimLeft_numeral (n : Numeral) (r : Text) : trimLeft (n.text ++ r) = n.text ++ r := by
  obtain ⟨c, cs, hn, hc⟩ := n.exists_text_eq_cons
  rw [hn, List.cons_append, trimLeft, List.dropWhile_cons_of_neg]
  simp [isBlank_of_isAsciiDigit hc]

theorem number?_numeral (n : Numeral) (hr : EndsNumeral r) :
    number? (n.text ++ r) = some (n.text, r) := by
  rw [number?, trimLeft_numeral, digits?_numeral n hr]

theorem isSmall_of_mem_numeral (hsmall : ∀ c ∈ r, isSmall c = true) :
    ∀ c ∈ n.text ++ r, isSmall c = true := by
  intro c hc
  rcases List.mem_append.1 hc with hc | hc
  · exact isSmall_of_isAsciiDigit (Numeral.isAsciiDigit_of_mem hc)
  · exact hsmall c hc

/-! ## Templates that do not fit -/

theorem firstGuess_of_none {t : Text} {attempt : Text → Attempt} {attempts : List (Text → Attempt)}
    (h : attempt t = .ok none) : firstGuess t (attempt :: attempts) = firstGuess t attempts := by
  rw [firstGuess, h]
  rfl

theorem firstGuess_of_some {t : Text} {attempt : Text → Attempt} {attempts : List (Text → Attempt)}
    {g : Guess} (h : attempt t = .ok (some g)) :
    firstGuess t (attempt :: attempts) = .ok (some g) := by
  rw [firstGuess, h]
  rfl

/-- If no other attempt comes to a guess the first one decides. -/
theorem firstGuess_of_rest {t : Text} {attempt : Text → Attempt} {attempts : List (Text → Attempt)}
    (h : firstGuess t attempts = .ok none) : firstGuess t (attempt :: attempts) = attempt t := by
  rw [firstGuess, h]
  refine (bind_congr fun guess => ?_).trans (bind_pure _)
  cases guess <;> rfl

section Wording

variable {t : Text} (hstandard : readStandard t = .ok none)
include hstandard

/-- A wording that is understood by a template. -/
theorem readQualified_of_infer {g : Guess} (hinfer : infer t = .ok (some g)) :
    readQualified t = .ok (some (g.control, g.remarks)) := by
  have htidied : readTidied t = .ok (some (g.control, g.remarks)) :=
    bind_eq_ok.2 ⟨none, hstandard, bind_eq_ok.2 ⟨some g, firstGuess_of_some hinfer, rfl⟩⟩
  exact bind_eq_ok.2 ⟨some (g.control, g.remarks), htidied, rfl⟩

/-- A wording with a numeral of too many digits. -/
theorem readQualified_of_error {e : OversizedNumeral} (hinfer : infer t = .error e) :
    readQualified t = .error e := by
  have hguess : firstGuess t [infer, inferFreeText] = .error e := bind_eq_error hinfer
  have htidied : readTidied t = .error e := by
    rw [readTidied, hstandard]
    show firstGuess t [infer, inferFreeText] >>= _ = _
    exact bind_eq_error hguess
  exact bind_eq_error htidied

/-- A wording that no template fits is understood by its parts, if at all. -/
theorem readTidied_of_infer_none (hinfer : infer t = .ok none) :
    readTidied t = do
      return (← inferFreeText t).map fun guess => (guess.control, guess.remarks) := by
  have hguess : firstGuess t [infer, inferFreeText] = inferFreeText t := by
    rw [firstGuess_of_none hinfer]
    exact firstGuess_of_rest rfl
  rw [readTidied, hstandard, hguess]
  rfl

end Wording

theorem readQualified_of_some {t : Text} {found : TimeControl × List Remark}
    (h : readTidied t = .ok (some found)) : readQualified t = .ok (some found) :=
  bind_eq_ok.2 ⟨some found, h, rfl⟩

theorem readQualified_of_none {t : Text} (h : readTidied t = .ok none)
    (hcore : ∀ core, dropQualifier? t = some core → readTidied core = .ok none) :
    readQualified t = .ok none := by
  refine bind_eq_ok.2 ⟨none, h, ?_⟩
  dsimp only
  split
  · rfl
  · rename_i core hdrop
    exact bind_eq_ok.2 ⟨none, hcore core hdrop, rfl⟩

/-- The standard form of minutes with seconds for each move. -/
theorem normalized?_minutes (how : Interpretation) (minutes : Nat) (increment : Option Nat) :
    (Guess.single how (minutesPeriod minutes none increment)).control.normalized? =
      if 60 * minutes ≤ maxCount then some (Period.toText ⟨60 * minutes, none, increment⟩)
      else none := by
  rw [minutesPeriod, secondsPeriod, Nat.mul_comm minutes 60, inRange?]
  split
  · exact normalized?_single _ true
  · rfl

theorem isBlankText_numeral (n : Numeral) (r : Text) : isBlankText (n.text ++ r) = false := by
  obtain ⟨c, cs, htext, hc⟩ := n.exists_text_eq_cons
  simp [isBlankText, htext, isBlank_of_isAsciiDigit hc]

theorem bind_number? {α : Type} (hr : EndsNumeral r) (f : Text × Text → Option α) :
    number? (n.text ++ r) >>= f = f (n.text, r) := by
  rw [number?_numeral n hr]
  rfl

/-- A game is announced by a letter. -/
theorem inferGame_numeral (hsmall : ∀ c ∈ r, isSmall c = true) :
    inferGame (n.text ++ r) = .ok none := by
  have hletter : afterGame? (n.text ++ r) = none := by
    obtain ⟨c, cs, hn, hc⟩ := n.exists_text_eq_cons
    have hg : ¬('g' == c) = true := by
      rw [beq_iff_eq]
      exact (digit_ne hc (by decide)).symm
    have hlower : lower (n.text ++ r) = c :: (cs ++ r) := by
      rw [lower_of_small (isSmall_of_mem_numeral hsmall), hn, List.cons_append]
    have hgame : "game".toList.isPrefixOf? (c :: (cs ++ r)) = none := if_neg hg
    have hshort : "g".toList.isPrefixOf? (c :: (cs ++ r)) = none := if_neg hg
    unfold afterGame?
    rw [hlower]
    dsimp only
    rw [hgame, hshort]
    rfl
  unfold inferGame gameNumerals?
  rw [hletter]
  rfl

section Signs

variable (hr : EndsNumeral r)
include hr

/-- A sign that has to follow the numeral and does not. -/
theorem bind_number?_word? {α : Type} {sign : String} (h : word? sign r = none)
    (f : Text × Text → Text → Option α) :
    (number? (n.text ++ r) >>= fun cut => word? sign cut.2 >>= f cut) = none := by
  rw [bind_number? hr, h]
  rfl

theorem apostrophePerMove?_numeral (h : word? "'" r = none) :
    apostrophePerMove? (n.text ++ r) = none :=
  bind_number?_word? hr h _

theorem stageAndRest?_numeral (h : word? "'" r = none) (needsWord : Bool) :
    stageAndRest? needsWord (n.text ++ r) = none :=
  bind_number?_word? hr h _

theorem triplePlus?_numeral (h : word? "+" r = none) : triplePlus? (n.text ++ r) = none :=
  bind_number?_word? hr h _

theorem twoStageSlash?_numeral (h : word? "+" r = none) : twoStageSlash? (n.text ++ r) = none :=
  bind_number?_word? hr h _

theorem clockStyle?_numeral (h : word? ":" r = none) : clockStyle? (n.text ++ r) = none :=
  bind_number?_word? hr h _

end Signs

/-- No letter is made small. -/
theorem foldCase_numeral (hsmall : ∀ c ∈ r, isSmall c = true) :
    foldCase (n.text ++ r) = n.text ++ r :=
  foldCase_of_small (isSmall_of_mem_numeral hsmall)

/-- The compact wordings want an apostrophe and more behind the numeral. -/
theorem inferCompactFide_numeral (hsmall : ∀ c ∈ r, isSmall c = true)
    (hstage : ∀ needsWord, stageAndRest? needsWord (n.text ++ r) = none) :
    inferCompactFide (n.text ++ r) = .ok none := by
  have hrest : stageRestIncrement? (n.text ++ r) = none := by
    rw [stageRestIncrement?, hstage]
    rfl
  have hwith : compactWithMove? (n.text ++ r) = none := by
    rw [compactWithMove?, hrest]
    rfl
  have hend : compactToEnd? (n.text ++ r) = none := by
    rw [compactToEnd?, hrest]
    rfl
  have hbonus : compactBonus? (n.text ++ r) = none := by
    rw [compactBonus?, hstage]
    rfl
  unfold inferCompactFide
  dsimp only
  rw [foldCase_numeral hsmall, hwith, hend, hbonus]
  rfl

/-- **What is left** of the templates if those with apostrophes or with two stages do not fit. -/
theorem infer_numeral (hsmall : ∀ c ∈ r, isSmall c = true)
    (hmove : apostrophePerMove? (n.text ++ r) = none)
    (hstage : ∀ needsWord, stageAndRest? needsWord (n.text ++ r) = none)
    (hfide : fideAdditional? (n.text ++ r) = none) (htriple : triplePlus? (n.text ++ r) = none)
    (hslash : twoStageSlash? (n.text ++ r) = none) :
    infer (n.text ++ r) = firstGuess (n.text ++ r) [inferCompactMinuteSecond, inferClockStyle,
      inferApostrophes, inferSmallBase, inferSmallNumber] := by
  have hfold : foldCase (n.text ++ r) = n.text ++ r := foldCase_numeral hsmall
  rw [infer, firstGuess_of_none (inferGame_numeral hsmall), firstGuess_of_none,
    firstGuess_of_none (inferCompactFide_numeral hsmall hstage), firstGuess_of_none,
    firstGuess_of_none, firstGuess_of_none]
  -- what is left to show of the attempts, from the last one back to the first
  · rw [inferTwoStageSlash, hslash]
    rfl
  · rw [inferTriplePlus, hfold, htriple]
    rfl
  · rw [inferFideAdditional, hfold, hfide]
    rfl
  · rw [inferApostrophePerMove, hfold, hmove]
    rfl

/-- A numeral is no heading. -/
theorem heading?_numeral (n : Numeral) (r : Text) : heading? (n.text ++ r) = none := by
  obtain ⟨c, cs, hn, hc⟩ := n.exists_text_eq_cons
  have hstop : (isLetter c || isBlank c) = false := by
    simp [isLetter, isDecimalDigit_of_isAsciiDigit hc, isBlank_of_isAsciiDigit hc]
  unfold heading?
  rw [hn, List.cons_append, List.takeWhile_cons_of_neg (by simp [hstop])]

theorem compactMinuteSecond?_numeral (hr : EndsNumeral r) :
    compactMinuteSecond? (n.text ++ r) = (do
      let t ← word? "+" (maybe (oneOf? minuteUnits) r)
      let (increment, t) ← number? t
      incrementEnd? t
      return [n.text, increment]) := by
  unfold compactMinuteSecond?
  rw [maybe, heading?_numeral, Option.getD_none]
  exact bind_number? hr _

/-- A plus sign has to follow the numeral, or the minutes behind it. -/
theorem inferCompactMinuteSecond_numeral (hr : EndsNumeral r) (hsmall : ∀ c ∈ r, isSmall c = true)
    (h : word? "+" (maybe (oneOf? minuteUnits) r) = none) :
    inferCompactMinuteSecond (n.text ++ r) = .ok none := by
  rw [inferCompactMinuteSecond, foldCase_numeral hsmall, compactMinuteSecond?_numeral hr, h]
  rfl

theorem inferClockStyle_numeral (hr : EndsNumeral r) (hsmall : ∀ c ∈ r, isSmall c = true)
    (h : word? ":" r = none) : inferClockStyle (n.text ++ r) = .ok none := by
  rw [inferClockStyle, foldCase_numeral hsmall, clockStyle?_numeral hr h]
  rfl

theorem inferApostrophes_of_getLast {u : Text} {c : Char} (hc : c ≠ '\'') :
    inferApostrophes (u ++ [c]) = .ok none := by
  unfold inferApostrophes
  rw [List.reverse_append, List.reverse_singleton, List.singleton_append]
  split
  · rename_i heq
    exact absurd (List.cons.inj heq).1 hc
  · rename_i heq
    exact absurd (List.cons.inj heq).1 hc
  · rfl

theorem inferApostrophes_append_numeral (u : Text) (n : Numeral) :
    inferApostrophes (u ++ n.text) = .ok none := by
  obtain ⟨v, c, hv, hc⟩ := n.exists_text_eq_concat
  rw [hv, ← List.append_assoc]
  exact inferApostrophes_of_getLast (digit_ne hc (by decide))

/-- A number stands alone. -/
theorem inferSmallNumber_of_plus {t : Text} (h : '+' ∈ t) : inferSmallNumber t = .ok none := by
  have hsign : (t.any fun c => c == '+' || c == '/' || c == ':') = true :=
    List.any_eq_true.2 ⟨'+', h, rfl⟩
  rw [inferSmallNumber, hsign]
  rfl

/-! ## Free text -/

theorem numeralsOf_digits {t : Text} (h : ∀ c ∈ t, isAsciiDigit c = true) (hr : EndsNumeral r) :
    numeralsOf true (t ++ r) = numeralsOf false r := by
  induction t with
  | nil =>
    cases r with
    | nil => rfl
    | cons c r =>
      have hc : isDecimalDigit c = false := by simpa [EndsNumeral] using hr
      rw [List.nil_append, numeralsOf, numeralsOf]
      simp only [hc, Bool.false_eq_true, if_false]
  | cons c t ih =>
    obtain ⟨hc, ht⟩ := List.forall_mem_cons.1 h
    rw [List.cons_append, numeralsOf, if_pos (isDecimalDigit_of_isAsciiDigit hc), if_pos rfl,
      List.nil_append, ih ht]

/-- **A numeral counts once**, with all its digits. -/
theorem numeralsOf_numeral (n : Numeral) (hr : EndsNumeral r) :
    numeralsOf false (n.text ++ r) = (n.text, r) :: numeralsOf false r := by
  have hdigits := digits?_numeral n hr
  obtain ⟨c, cs, htext, hc⟩ := n.exists_text_eq_cons
  have htail : ∀ d ∈ cs, isAsciiDigit d = true :=
    fun d hd => n.isAsciiDigit_of_mem (htext ▸ List.mem_cons_of_mem c hd)
  rw [htext, List.cons_append] at hdigits ⊢
  rw [numeralsOf, if_pos (isDecimalDigit_of_isAsciiDigit hc), if_neg Bool.false_ne_true, hdigits,
    numeralsOf_digits htail hr]
  rfl

section Search

variable {α : Type} {read : Text → Option α} {t u : Text}

/-- Where nothing is found the search goes on. -/
theorem search_append (h : ∀ v, v <:+ u → v ≠ [] → read (v ++ t) = none) :
    search read (u ++ t) = search read t := by
  induction u with
  | nil => rfl
  | cons c u ih =>
    have hc := h (c :: u) List.suffix_rfl (List.cons_ne_nil c u)
    rw [List.cons_append] at hc ⊢
    rw [search, hc]
    exact ih fun v hv => h v (hv.trans (List.suffix_cons c u))

theorem search_of_some {a : α} (hne : t ≠ []) (h : read t = some a) : search read t = some a := by
  obtain ⟨c, cs, rfl⟩ := List.exists_cons_of_ne_nil hne
  rw [search, h]

/-- A word is not held without one of its characters. -/
theorem holds_of_not_mem {part : String} {c : Char} (hc : c ∈ part.toList) (h : c ∉ t) :
    holds part t = false := by
  have hnone : ∀ v, v <:+ t → (if part.toList.isPrefixOf v then some () else none) = none :=
    fun v hv => if_neg fun hstart =>
      h (hv.subset ((List.isPrefixOf_iff_prefix.1 hstart).subset hc))
  have hsearch : search (fun v => if part.toList.isPrefixOf v then some () else none) (t ++ [])
      = none := search_append fun v hv _ => by rw [List.append_nil]; exact hnone v hv
  rw [List.append_nil] at hsearch
  rw [holds, hsearch]
  rfl

theorem holds_append {part : String} (hne : part.toList ≠ []) (u t : Text) :
    holds part (u ++ (part.toList ++ t)) = true := by
  have hstart : part.toList.isPrefixOf (part.toList ++ t) = true :=
    List.isPrefixOf_iff_prefix.2 (List.prefix_append _ _)
  induction u with
  | nil =>
    rw [holds, List.nil_append, search_of_some (by simp [hne]) (if_pos hstart)]
    rfl
  | cons c u ih =>
    rw [holds, List.cons_append, search]
    split
    · rfl
    · exact ih

end Search

/-! ### Texts without letters -/

/-- No word is taken off a text without a character that stands in all of them. -/
theorem oneOf?_of_not_mem {ws : List String} {c : Char} {t : Text} (hws : ∀ w ∈ ws, c ∈ w.toList)
    (h : c ∉ t) : oneOf? ws t = none := by
  unfold oneOf?
  rw [List.findSome?_eq_none_iff]
  intro w hw
  rw [Option.eq_none_iff_forall_ne_some]
  intro rest hrest
  have happend : w.toList ++ rest = trimLeft t := List.isPrefixOf?_eq_some_iff_append_eq.1 hrest
  have hmem : c ∈ trimLeft t := happend ▸ List.mem_append_left rest (hws w hw)
  exact h ((List.dropWhile_suffix _).subset hmem)

/-- **Free text** needs a letter of the units. -/
theorem inferFreeText_of_not_mem {t : Text} (hm : 'm' ∉ lower t) (hs : 's' ∉ lower t) :
    inferFreeText t = .ok none := by
  have hfirst : firstStage? (lower t) = none := by
    unfold firstStage?
    rw [List.findSome?_eq_none_iff]
    rintro ⟨minutes, rest⟩ hcut
    have hrest : 'm' ∉ rest := fun h => hm ((isCutFrom_of_mem_numeralsOf hcut).2.subset h)
    have hunit : oneOf? minuteUnits rest = none := oneOf?_of_not_mem (c := 'm') (by decide) hrest
    dsimp only
    rw [forMoves?, hunit]
    rfl
  have hstages : inferStages (lower t) = .ok none := by
    rw [inferStages, hfirst]
  have hparts : inferParts (lower t) = .ok none := by
    rw [inferParts, holds_of_not_mem (c := 'm') (by decide) hm,
      holds_of_not_mem (c := 's') (by decide) hs, holds_of_not_mem (c := 's') (by decide) hs]
    rfl
  rw [inferFreeText, firstGuess_of_none hstages, firstGuess_of_none hparts, firstGuess]

/-- What ends in no letter has no last word. -/
theorem dropQualifier?_of_getLast {u : Text} {c : Char} (hc : isLetter c = false) :
    dropQualifier? (u ++ [c]) = none := by
  unfold dropQualifier?
  rw [List.reverse_append, List.reverse_singleton, List.singleton_append]
  dsimp only
  rw [List.takeWhile_cons_of_neg (by simp [hc])]
  rfl

theorem isLetter_of_isAsciiDigit {c : Char} (h : isAsciiDigit c = true) : isLetter c = false := by
  simp [isLetter, isDecimalDigit_of_isAsciiDigit h]

/-! ### Increments -/

theorem exists_numeral_of_suffix {v : Text} (h : v <:+ n.text) (hne : v ≠ []) :
    ∃ m : Numeral, m.text = v := by
  have hdigits : ∀ c ∈ v, isAsciiDigit c = true := fun c hc => n.isAsciiDigit_of_mem (h.subset hc)
  exact ⟨⟨v, by simpa [isNumeral, hne] using hdigits⟩, rfl⟩

/-- A numeral is an increment if seconds for each move are named behind it. -/
theorem incrementHere?_numeral (n : Numeral) (hr : EndsNumeral r) :
    incrementHere? (n.text ++ r) =
      ((oneOf? secondUnits r).bind addedPerMove?).map fun rest => (n.text, rest) := by
  unfold incrementHere?
  rw [digits?_numeral n hr]
  show (oneOf? secondUnits r >>= fun t => (addedPerMove? t).map fun rest => (n.text, rest)) = _
  cases oneOf? secondUnits r <;> rfl

section NoIncrement

variable (hr : EndsNumeral r) (h : (oneOf? secondUnits r).bind addedPerMove? = none)
include hr h

theorem incrementHere?_eq_none {v : Text} (hv : v <:+ n.text) (hne : v ≠ []) :
    incrementHere? (v ++ r) = none := by
  obtain ⟨m, rfl⟩ := exists_numeral_of_suffix hv hne
  rw [incrementHere?_numeral m hr, h]
  rfl

theorem search_incrementHere?_numeral (n : Numeral) :
    search incrementHere? (n.text ++ r) = search incrementHere? r :=
  search_append fun _ => incrementHere?_eq_none hr h

theorem withoutIncrements_numeral (n : Numeral) :
    withoutIncrements (n.text ++ r) = n.text ++ withoutIncrements r :=
  substitute_append fun _ hv hne => by rw [incrementHere?_eq_none hr h hv hne]; rfl

end NoIncrement

/-- An increment at the end of a text is replaced by a space. -/
theorem withoutIncrements_of_whole {t seconds : Text} (hne : t ≠ [])
    (h : incrementHere? t = some (seconds, [])) : withoutIncrements t = [' '] := by
  obtain ⟨c, cs, rfl⟩ := List.exists_cons_of_ne_nil hne
  rw [withoutIncrements, substitute, h]
  show [' '] ++ substitute _ cs.length cs = [' ']
  rw [substitute_skip, List.drop_length, substitute, List.append_nil]

end TimeControl

end Scoresheet
