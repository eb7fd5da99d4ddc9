import Scoresheet.Proofs.TimeControl.GameMinutes
import Scoresheet.Proofs.TimeControl.PlusSigns

/-!
# Minutes and seconds for each move

What is made of `b min + i sec per move` for all numerals `b` and `i`, however many digits they have
(`normalize_minuteWording`). Tidying closes up the plus sign, and a template takes the two numerals.
If one of them is out of range no template fits, and the wording is understood by its parts: then the
minutes count, and the increment is dropped.
-/

namespace Scoresheet

open Text

namespace TimeControl

variable {b i : Numeral} {tail : Text}

/-- The wording `b min + i sec per move`. -/
def minuteWording (b i : Numeral) : Text :=
  b.text ++ (" min + ".toList ++ (i.text ++ " sec per move".toList))

/-- The wording with the plus sign closed up, and some words for seconds at its end. -/
def closedWording (b i : Numeral) (tail : Text) : Text :=
  b.text ++ ' ' :: 'm' :: 'i' :: 'n' :: '+' :: (i.text ++ tail)

/-- What stands on either side of the plus sign. -/
theorem closedWording_eq (b i : Numeral) (tail : Text) :
    closedWording b i tail = (b.text ++ " min".toList) ++ '+' :: (i.text ++ tail) := by
  rw [List.append_assoc]
  rfl

theorem endsNumeral_words : EndsNumeral (' ' :: 'm' :: 'i' :: 'n' :: '+' :: (i.text ++ tail)) := rfl

/-! ## Tidying -/

/-- A character that stands in neither the numerals nor the words. -/
theorem not_mem_closedWording {c : Char} (hdigit : isAsciiDigit c = false)
    (hwords : c ∉ " min+".toList) (htail : c ∉ tail) : c ∉ closedWording b i tail := by
  intro hc
  rcases List.mem_append.1 hc with hc | hc
  · exact b.not_mem_text hdigit hc
  · have hparts : c ∈ " min+".toList ++ (i.text ++ tail) := hc
    rcases List.mem_append.1 hparts with hc | hc
    · exact hwords hc
    · rcases List.mem_append.1 hc with hc | hc
      · exact i.not_mem_text hdigit hc
      · exact htail hc

theorem areOperands_words (b i : Numeral) :
    AreOperands (b.text ++ " min".toList) (i.text ++ " sec per move".toList) where
  noSign c hc := by
    have hnot : ∀ c ∈ "+-/:|_".toList, isAsciiDigit c = false ∧ c ∉ " min".toList ∧
        c ∉ " sec per move".toList := List.all_iff_forall_prop.1 (by decide)
    obtain ⟨hdigit, hbefore, hbehind⟩ := hnot c hc
    simp only [List.mem_append, not_or]
    exact ⟨⟨b.not_mem_text hdigit, hbefore⟩, i.not_mem_text hdigit, hbehind⟩
  before := by simp
  behind := by
    obtain ⟨c, cs, htext, hc⟩ := i.exists_text_eq_cons
    rw [htext]
    simpa using digit_ne hc (by decide)

/-- **One space on each side** of the plus sign is closed up. -/
theorem closeUp_minuteWording (b i : Numeral) :
    closeUp (minuteWording b i) = ⟨closedWording b i " sec per move".toList,
      ifChanged (minuteWording b i) (closedWording b i " sec per move".toList)
        .operatorSpacing⟩ := by
  have hwording : minuteWording b i
      = aroundPlus (b.text ++ " min".toList) (i.text ++ " sec per move".toList) 1 1 := by
    simp [minuteWording, aroundPlus]
  have hclosed : closedWording b i " sec per move".toList
      = aroundPlus (b.text ++ " min".toList) (i.text ++ " sec per move".toList) 0 0 := by
    rw [aroundPlus_zero, closedWording_eq]
  rw [hwording, hclosed]
  exact closeUp_aroundPlus (areOperands_words b i) 1 1

theorem tidy_minuteWording (b i : Numeral) :
    ∃ tidied, tidy (minuteWording b i) = .ok tidied ∧
      tidied.text = closedWording b i " sec per move".toList ∧
      .ambiguousQuotes ∉ tidied.remarks := by
  obtain ⟨c, cs, htext, hc⟩ := b.exists_text_eq_cons
  have hquote : isQuote c = false := isQuote_of_isPlain (isPlain_of_isAsciiDigit hc)
  have hcons : minuteWording b i
      = c :: (cs ++ (" min + ".toList ++ (i.text ++ " sec per move".toList))) := by
    rw [minuteWording, htext, List.cons_append]
  have hconcat : ∀ words : Text, b.text ++ (words ++ (i.text ++ " sec per move".toList))
      = (b.text ++ (words ++ (i.text ++ " sec per mov".toList))) ++ ['e'] := by
    intro words
    simp only [List.append_assoc]
    rfl
  have htight : IsTight (minuteWording b i) :=
    ⟨⟨c, _, hcons, isBlank_of_isAsciiDigit hc⟩, ⟨_, 'e', hconcat _, by decide⟩⟩
  have hquotes : ∀ d, isAsciiDigit d = false → d ∉ " min + ".toList →
      d ∉ " sec per move".toList → d ∉ minuteWording b i := by
    intro d hd hwords htail
    simp only [minuteWording, List.mem_append, not_or]
    exact ⟨b.not_mem_text hd, hwords, i.not_mem_text hd, htail⟩
  have hunwrap : unwrap (minuteWording b i) = ⟨minuteWording b i, []⟩ :=
    unwrap_eq htight.trim (hcons ▸ isEnclosed_of_head hquote _)
      (hasAmbiguousQuote_of_not_mem (hquotes '"' (by decide) (by decide) (by decide))
        (hquotes '\'' (by decide) (by decide) (by decide)))
  have hlast : stripApostrophe (closedWording b i " sec per move".toList)
      = .ok ⟨closedWording b i " sec per move".toList, []⟩ := by
    have hclosed := hconcat " min+".toList
    show stripApostrophe (b.text ++ (" min+".toList ++ (i.text ++ " sec per move".toList))) = _
    rw [hclosed, stripApostrophe_of_getLast (by decide), ← hclosed]
    rfl
  refine ⟨_, tidy_eq hunwrap (closeUp_minuteWording b i) hlast, rfl, ?_⟩
  dsimp only
  rw [List.nil_append, List.append_nil, ifChanged]
  split <;> simp

/-! ## No other template -/

/-- Words for seconds at the end, behind which neither an additional time nor moves are named. -/
structure IsSecondsTail (tail : Text) : Prop where
  endsNumeral : EndsNumeral tail
  isSmall : ∀ c ∈ tail, isSmall c = true
  hasLetter : 's' ∈ tail
  noPlus : '+' ∉ tail
  noColon : ':' ∉ tail
  noAdditional : (oneOf? secondUnits tail).bind (word? "additional") = none
  noMoves : forMoves? tail = none
  noNumeral : numeralsOf false tail = []
  last : ∃ u c, tail = u ++ [c] ∧ c ≠ '\''

theorem isSecondsTail_perMove : IsSecondsTail " sec per move".toList :=
  ⟨rfl, List.all_eq_true.1 (by decide), by decide, by decide, by decide, rfl, rfl, rfl,
    " sec per mov".toList, 'e', rfl, by decide⟩

theorem isSecondsTail_per : IsSecondsTail " sec per".toList :=
  ⟨rfl, List.all_eq_true.1 (by decide), by decide, by decide, by decide, rfl, rfl, rfl,
    " sec pe".toList, 'r', rfl, by decide⟩

section ClosedWording

variable (htail : IsSecondsTail tail)
include htail

theorem splitOn_closedWording (b i : Numeral) :
    (closedWording b i tail).splitOn '+' = [b.text ++ " min".toList, i.text ++ tail] := by
  have hdigit : ∀ n : Numeral, '+' ∉ n.text := fun n => n.not_mem_text (by decide)
  rw [closedWording_eq, List.splitOn_append_cons_self_of_not_mem (by simp [hdigit]),
    List.splitOn_eq_singleton (by simp [hdigit, htail.noPlus])]

theorem readStandard_closedWording (b i : Numeral) :
    readStandard (closedWording b i tail) = .ok none := by
  obtain ⟨c, cs, htext, hc⟩ := b.exists_text_eq_cons
  have hcons : closedWording b i tail
      = c :: (cs ++ ' ' :: 'm' :: 'i' :: 'n' :: '+' :: (i.text ++ tail)) := by
    rw [closedWording, htext, List.cons_append]
  have hcolon : ':' ∉ closedWording b i tail :=
    not_mem_closedWording (by decide) (by decide) htail.noColon
  have hplus : '+' ∉ b.text ++ " min".toList := by simp [b.not_mem_text (c := '+') (by decide)]
  have hslash : '/' ∉ b.text ++ " min".toList := by simp [b.not_mem_text (c := '/') (by decide)]
  have hbase : readBase (b.text ++ " min".toList) = .ok none :=
    readBase_of_mem (c := 'm') hslash (by simp) (by decide)
  have hparts := closedWording_eq b i tail
  rw [hcons] at hcolon hparts ⊢
  exact readStandard_of_readBase hparts (not_mem_signs_of_isAsciiDigit hc) hcolon hplus hbase

theorem isSmall_of_mem_closedWording :
    ∀ c ∈ ' ' :: 'm' :: 'i' :: 'n' :: '+' :: (i.text ++ tail), isSmall c = true := by
  intro c hc
  have hparts : c ∈ " min+".toList ++ (i.text ++ tail) := hc
  rcases List.mem_append.1 hparts with hc | hc
  · have hwords : ∀ c ∈ " min+".toList, isSmall c = true := List.all_eq_true.1 (by decide)
    exact hwords c hc
  · rcases List.mem_append.1 hc with hc | hc
    · exact isSmall_of_isAsciiDigit (i.isAsciiDigit_of_mem hc)
    · exact htail.isSmall c hc

/-- No additional time is named. -/
theorem fideAdditional?_closedWording (b i : Numeral) :
    fideAdditional? (closedWording b i tail) = none := by
  refine (bind_number? endsNumeral_words _).trans ?_
  show number? (i.text ++ tail) >>= _ = none
  refine (bind_number? htail.endsNumeral _).trans ?_
  have hadditional := htail.noAdditional
  show oneOf? secondUnits tail >>= _ = none
  cases hunit : oneOf? secondUnits tail with
  | none => rfl
  | some rest =>
    rw [hunit, Option.bind_some] at hadditional
    show word? "additional" rest >>= _ = none
    rw [hadditional]
    rfl

/-- Neither side of the plus sign is a numeral. -/
theorem inferSmallBase_closedWording (b i : Numeral) :
    inferSmallBase (closedWording b i tail) = .ok none := by
  have hminutes : readCount (b.text ++ " min".toList) = .ok none :=
    readCount_of_mem (c := 'm') (by simp) (by decide)
  have hseconds : readCount (i.text ++ tail) = .ok none :=
    readCount_of_mem (List.mem_append_right _ htail.hasLetter) (by decide)
  unfold inferSmallBase
  rw [splitOn_closedWording htail]
  dsimp only
  rw [hminutes, hseconds]
  rfl

/-- **One template** is left for the wording. -/
theorem infer_closedWording (b i : Numeral) :
    infer (closedWording b i tail) = inferCompactMinuteSecond (closedWording b i tail) := by
  have hends : EndsNumeral (' ' :: 'm' :: 'i' :: 'n' :: '+' :: (i.text ++ tail)) :=
    endsNumeral_words
  have hsmall := isSmall_of_mem_closedWording (i := i) htail
  have hclock : inferClockStyle (closedWording b i tail) = .ok none :=
    inferClockStyle_numeral hends hsmall rfl
  have hapostrophes : inferApostrophes (closedWording b i tail) = .ok none := by
    obtain ⟨u, c, hu, hc⟩ := htail.last
    have hconcat : closedWording b i tail
        = (b.text ++ ' ' :: 'm' :: 'i' :: 'n' :: '+' :: (i.text ++ u)) ++ [c] := by
      simp [closedWording, hu]
    rw [hconcat]
    exact inferApostrophes_of_getLast hc
  have hnumber : inferSmallNumber (closedWording b i tail) = .ok none :=
    inferSmallNumber_of_plus (by simp [closedWording])
  have hrest := infer_numeral hsmall (apostrophePerMove?_numeral hends rfl)
    (stageAndRest?_numeral hends rfl) (fideAdditional?_closedWording htail b i)
    (triplePlus?_numeral hends rfl) (twoStageSlash?_numeral hends rfl)
  refine hrest.trans (firstGuess_of_rest ?_)
  rw [← closedWording, firstGuess_of_none hclock, firstGuess_of_none hapostrophes,
    firstGuess_of_none (inferSmallBase_closedWording htail b i), firstGuess_of_none hnumber,
    firstGuess]

/-- The template asks for seconds at the end. -/
theorem inferCompactMinuteSecond_closedWording (b i : Numeral) :
    inferCompactMinuteSecond (closedWording b i tail) =
      guessFrom ((incrementEnd? tail).map fun _ => [b.text, i.text]) fun
        | [base, increment] =>
          some (.single .compactMinuteSecond (minutesPeriod base none (some increment)))
        | _ => none := by
  have hsmall := isSmall_of_mem_closedWording (i := i) htail
  have hfold : foldCase (closedWording b i tail) = closedWording b i tail :=
    foldCase_numeral hsmall
  have hnumerals : compactMinuteSecond? (closedWording b i tail)
      = (incrementEnd? tail).map fun _ => [b.text, i.text] := by
    rw [closedWording, compactMinuteSecond?_numeral endsNumeral_words]
    show number? (i.text ++ tail) >>= _ = _
    refine (bind_number? htail.endsNumeral _).trans ?_
    show (incrementEnd? tail >>= fun _ => some [b.text, i.text]) = _
    cases incrementEnd? tail <;> rfl
  rewrite [inferCompactMinuteSecond, hfold, hnumerals]
  rfl

/-! ## Free text -/

theorem numeralsOf_closedWording (b i : Numeral) :
    numeralsOf false (closedWording b i tail)
      = [(b.text, ' ' :: 'm' :: 'i' :: 'n' :: '+' :: (i.text ++ tail)), (i.text, tail)] := by
  rw [closedWording, numeralsOf_numeral b endsNumeral_words]
  show _ :: numeralsOf false (i.text ++ tail) = _
  rw [numeralsOf_numeral i htail.endsNumeral, htail.noNumeral]

/-- **The wording is understood by its parts** or not at all. -/
theorem inferFreeText_closedWording (b i : Numeral) :
    inferFreeText (closedWording b i tail) = inferParts (closedWording b i tail) := by
  have hlower : lower (closedWording b i tail) = closedWording b i tail :=
    lower_of_small (isSmall_of_mem_numeral (isSmall_of_mem_closedWording htail))
  have hfirst : firstStage? (closedWording b i tail) = none := by
    have hminutes : forMoves? (' ' :: 'm' :: 'i' :: 'n' :: '+' :: (i.text ++ tail)) = none := rfl
    rw [firstStage?, numeralsOf_closedWording htail]
    simp only [List.findSome?_cons, hminutes, htail.noMoves, Option.map_none, List.findSome?_nil]
  have hstages : inferStages (closedWording b i tail) = .ok none := by
    rw [inferStages, hfirst]
  rw [inferFreeText, hlower, firstGuess_of_none hstages]
  exact firstGuess_of_rest rfl

end ClosedWording

theorem holds_min_closedWording (b i : Numeral) (tail : Text) :
    holds "min" (closedWording b i tail) = true := by
  have hparts : closedWording b i tail
      = (b.text ++ [' ']) ++ ("min".toList ++ ('+' :: (i.text ++ tail))) := by
    rw [List.append_assoc]
    rfl
  rw [hparts, holds_append (by decide)]

/-- Minutes are no increment. -/
theorem search_closedWording (b i : Numeral) (tail : Text) :
    search incrementHere? (closedWording b i tail) = search incrementHere? (i.text ++ tail) := by
  rw [closedWording, search_incrementHere?_numeral endsNumeral_words rfl]
  rfl

theorem withoutIncrements_closedWording (b i : Numeral) (tail : Text) :
    withoutIncrements (closedWording b i tail)
      = b.text ++ ' ' :: 'm' :: 'i' :: 'n' :: '+' :: withoutIncrements (i.text ++ tail) := by
  rw [closedWording, withoutIncrements_numeral endsNumeral_words rfl]
  rfl

theorem readLast_singleton (n : Numeral) : readLast [n.text] = readCount n.text := by
  rw [readLast, List.mapM_cons, List.mapM_nil]
  cases readCount n.text <;> rfl

theorem bind_inRange? (k : Nat) : (inRange? k).bind inRange? = inRange? k := by
  cases h : inRange? k with
  | none => rfl
  | some base =>
    obtain ⟨rfl, _⟩ := inRange?_eq_some_iff.1 h
    rw [Option.bind_some, h]

/-- What the parts of the wording come to: the increment is dropped if it is out of range. -/
theorem inferParts_perMove (b i : Numeral) :
    inferParts (closedWording b i " sec per move".toList) = (do
      let increment ← readCount i.text
      let minutes ← readCount b.text
      return minutes.map fun m => .single .freeText (minutesPeriod m none increment)) := by
  have hincrement : incrementHere? (i.text ++ " sec per move".toList) = some (i.text, []) := by
    rw [incrementHere?_numeral i (r := " sec per move".toList) rfl]
    rfl
  have hne : i.text ++ " sec per move".toList ≠ [] := by simp
  have hsearch : search incrementHere? (closedWording b i " sec per move".toList)
      = some (i.text, []) := by
    rw [search_closedWording, search_of_some hne hincrement]
  have hrest : withoutIncrements (closedWording b i " sec per move".toList)
      = b.text ++ " min+ ".toList := by
    rw [withoutIncrements_closedWording, withoutIncrements_of_whole hne hincrement]
    rfl
  have hnumerals : numeralsOf false (b.text ++ " min+ ".toList) = [(b.text, " min+ ".toList)] := by
    rw [numeralsOf_numeral b (r := " min+ ".toList) rfl]
    rfl
  have hminutes : numeralsWith minuteWords (b.text ++ " min+ ".toList) = [b.text] := by
    rw [numeralsWith, hnumerals]
    rfl
  have hseconds : numeralsWith secondWords (b.text ++ " min+ ".toList) = [] := by
    rw [numeralsWith, hnumerals]
    rfl
  unfold inferParts
  rw [holds_min_closedWording, hsearch, hrest]
  dsimp only
  rw [hminutes, hseconds, readLast_singleton]
  refine bind_congr fun increment => bind_congr fun minutes => ?_
  show Except.ok (minutes.map fun m => Guess.single .freeText
    (((inRange? (m * 60)).bind inRange?).map fun base => ⟨base, none, increment⟩)) = _
  simp only [bind_inRange?]
  rfl

/-- Without the last word there is no increment, and no guess if the minutes are out of range. -/
theorem inferParts_per (hb : readCount b.text = .ok none) (hi : i.text.length ≤ maxDigits) :
    inferParts (closedWording b i " sec per".toList) = .ok none := by
  have hsearch : search incrementHere? (closedWording b i " sec per".toList) = none := by
    rw [search_closedWording, search_incrementHere?_numeral (r := " sec per".toList) rfl rfl]
    rfl
  have hrest : withoutIncrements (closedWording b i " sec per".toList)
      = closedWording b i " sec per".toList := by
    rw [withoutIncrements_closedWording,
      withoutIncrements_numeral (r := " sec per".toList) rfl rfl]
    rfl
  have hnumerals := numeralsOf_closedWording isSecondsTail_per b i
  have hminutes : numeralsWith minuteWords (closedWording b i " sec per".toList) = [b.text] := by
    rw [numeralsWith, hnumerals]
    rfl
  have hseconds : numeralsWith secondWords (closedWording b i " sec per".toList) = [i.text] := by
    rw [numeralsWith, hnumerals]
    rfl
  unfold inferParts
  rw [holds_min_closedWording, hsearch, hrest]
  dsimp only
  rw [hminutes, hseconds, readLast_singleton, readLast_singleton, hb, readCount_numeral hi]
  rfl

/-! ## Without the last word -/

theorem dropQualifier?_perMove (b i : Numeral) :
    dropQualifier? (closedWording b i " sec per move".toList)
      = some (closedWording b i " sec per".toList) := by
  have hsplit : ∀ tail : Text, closedWording b i (" sec per".toList ++ tail)
      = closedWording b i " sec per".toList ++ tail := by
    intro tail
    simp only [closedWording, List.append_assoc, List.cons_append]
  have hreverse : (closedWording b i " sec per move".toList).reverse
      = 'e' :: 'v' :: 'o' :: 'm' :: ' ' :: (closedWording b i " sec per".toList).reverse := by
    rw [show " sec per move".toList = " sec per".toList ++ " move".toList from rfl, hsplit,
      List.reverse_append]
    rfl
  have hlast : closedWording b i " sec per".toList = closedWording b i " sec pe".toList ++ ['r'] := by
    simp [closedWording]
  have htrim : trimRight (' ' :: (closedWording b i " sec per".toList).reverse).reverse
      = closedWording b i " sec per".toList := by
    rw [trimRight, List.reverse_reverse, hlast, List.reverse_append]
    show (List.dropWhile isBlank ('r' :: (closedWording b i " sec pe".toList).reverse)).reverse = _
    rw [List.dropWhile_cons_of_neg (by decide), List.reverse_cons, List.reverse_reverse]
  have hline : (closedWording b i " sec per".toList).contains '\n' = false := by
    simpa using not_mem_closedWording (b := b) (i := i) (c := '\n') (by decide) (by decide)
      (show '\n' ∉ " sec per".toList by decide)
  have hne : (closedWording b i " sec per".toList).isEmpty = false := by simp [closedWording]
  have htake : ('e' :: 'v' :: 'o' :: 'm' :: ' ' :: (closedWording b i " sec per".toList).reverse
      ).takeWhile isLetter = "evom".toList := rfl
  have hdrop : ('e' :: 'v' :: 'o' :: 'm' :: ' ' :: (closedWording b i " sec per".toList).reverse
      ).dropWhile isLetter = ' ' :: (closedWording b i " sec per".toList).reverse := rfl
  unfold dropQualifier?
  rw [hreverse]
  dsimp only
  rw [htake, hdrop, htrim, hne, hline]
  rfl

/-- The rest is not understood either if the minutes are out of range. -/
theorem readTidied_per (hb : readCount b.text = .ok none) (hi : i.text.length ≤ maxDigits) :
    readTidied (closedWording b i " sec per".toList) = .ok none := by
  have hinfer : infer (closedWording b i " sec per".toList) = .ok none := by
    rw [infer_closedWording isSecondsTail_per, inferCompactMinuteSecond_closedWording isSecondsTail_per]
    rfl
  rw [readTidied_of_infer_none (readStandard_closedWording isSecondsTail_per b i) hinfer,
    inferFreeText_closedWording isSecondsTail_per, inferParts_per hb hi]
  rfl

/-! ## Both numerals -/

theorem readCounts_pair (b i : Text) : readCounts [b, i] = (do
    let base ← readCount b
    let increment ← readCount i
    return [base, increment].mapM id) := by
  rw [readCounts, List.mapM_cons, List.mapM_cons, List.mapM_nil]
  cases readCount b with
  | error e => rfl
  | ok base => cases readCount i <;> rfl

/-- The template understands the wording if both numerals are in range. -/
theorem infer_perMove (b i : Numeral) :
    infer (closedWording b i " sec per move".toList) = (do
      let base ← readCount b.text
      let increment ← readCount i.text
      return match base, increment with
        | some b, some i => some (.single .compactMinuteSecond (minutesPeriod b none (some i)))
        | _, _ => none) := by
  rw [infer_closedWording isSecondsTail_perMove,
    inferCompactMinuteSecond_closedWording isSecondsTail_perMove]
  show (do return (← readCounts [b.text, i.text]).bind _) = _
  rw [readCounts_pair]
  simp only [bind_assoc, pure_bind]
  refine bind_congr fun base => bind_congr fun increment => ?_
  cases base <;> cases increment <;> rfl

/-- If one of the numerals is out of range the parts of the wording are left. -/
theorem readTidied_perMove (hb : b.text.length ≤ maxDigits) (hi : i.text.length ≤ maxDigits)
    (hrange : inRange? b.value = none ∨ inRange? i.value = none) :
    readTidied (closedWording b i " sec per move".toList) = .ok ((inRange? b.value).map fun m =>
      ((Guess.single .freeText (minutesPeriod m none (inRange? i.value))).control,
        (Guess.single .freeText (minutesPeriod m none (inRange? i.value))).remarks)) := by
  have hinfer : infer (closedWording b i " sec per move".toList) = .ok none := by
    rw [infer_perMove, readCount_numeral hb, readCount_numeral hi]
    rcases hrange with h | h
    · rw [h]
      rfl
    · rw [h]
      cases inRange? b.value <;> rfl
  rw [readTidied_of_infer_none (readStandard_closedWording isSecondsTail_perMove b i) hinfer,
    inferFreeText_closedWording isSecondsTail_perMove, inferParts_perMove, readCount_numeral hi,
    readCount_numeral hb]
  cases inRange? b.value <;> rfl

end TimeControl

open TimeControl

theorem isReadAsMinutes_minuteWording (b i : Numeral) :
    IsReadAsMinutes (closedWording b i " sec per move".toList) b i where
  oversizedMinutes := by
    intro hb
    have hinfer := infer_perMove b i
    rw [readCount_oversized hb] at hinfer
    exact readQualified_of_error (readStandard_closedWording isSecondsTail_perMove b i) hinfer
  oversizedIncrement := by
    intro hb hi
    have hinfer := infer_perMove b i
    rw [readCount_numeral hb, readCount_oversized hi] at hinfer
    exact readQualified_of_error (readStandard_closedWording isSecondsTail_perMove b i) hinfer
  outOfRange := by
    intro hb hi hminutes
    have hbase := readCount_numeral hb
    rw [hminutes] at hbase
    have htidied : readTidied (closedWording b i " sec per move".toList) = .ok none := by
      rw [readTidied_perMove hb hi (Or.inl hminutes), hminutes]
      rfl
    -- "move" is taken for a qualifier and dropped, which leaves the same minutes without an increment
    refine readQualified_of_none htidied fun core hcore => ?_
    rw [dropQualifier?_perMove] at hcore
    rw [← Option.some.inj hcore]
    exact readTidied_per hbase hi
  read := by
    intro hb hi hminutes
    -- an increment out of range makes the template fail, and the parts of the wording count
    cases hseconds : inRange? i.value with
    | none =>
      have htidied := readTidied_perMove hb hi (Or.inr hseconds)
      rw [hminutes, hseconds] at htidied
      exact ⟨.freeText, readQualified_of_some htidied⟩
    | some seconds =>
      have hinfer := infer_perMove b i
      rw [readCount_numeral hb, readCount_numeral hi, hminutes, hseconds] at hinfer
      exact ⟨.compactMinuteSecond,
        readQualified_of_infer (readStandard_closedWording isSecondsTail_perMove b i) hinfer⟩

/-- **`b min + i sec per move` for all numerals**: the increment is dropped if it is out of range. -/
theorem normalize_minuteWording (b i : Numeral) :
    normalizeTimeControl (minuteWording b i) = minutesAndIncrement b i := by
  obtain ⟨tidied, htidy, htext, hquotes⟩ := tidy_minuteWording b i
  have hread := isReadAsMinutes_minuteWording b i
  rw [← htext] at hread
  exact hread.normalized (isBlankText_numeral b _) htidy hquotes

end Scoresheet
