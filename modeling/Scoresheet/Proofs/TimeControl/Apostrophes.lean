import Scoresheet.Proofs.TimeControl.NumeralFirst
import Scoresheet.Proofs.TimeControl.StandardForm

/-!
# Minutes and seconds with apostrophes

A single number with an apostrophe loses the apostrophe when the value is tidied, since what is left
has the standard form. So it is read like a number without a unit: below sixty it is in minutes, from
sixty on in seconds. Where seconds for each move follow, the number is in minutes at every size
(`normalize_apostrophes`). A single number with two apostrophes is in seconds at every size
(`normalize_doubleApostrophe`).
-/

namespace Scoresheet

open Text

namespace TimeControl

variable {n s : Numeral}

/-! ## Tidying -/

/-- Behind a numeral an apostrophe is not loose. -/
theorem hasLooseApostrophe_numeral (n : Numeral) (before : Option Char) (r : Text) :
    ∃ c, isAsciiDigit c = true ∧
      hasLooseApostrophe before (n.text ++ r) = hasLooseApostrophe (some c) r := by
  have hall : ∀ (t : Text) (before : Option Char), t ≠ [] → (∀ c ∈ t, isAsciiDigit c = true) →
      ∃ c, isAsciiDigit c = true ∧
        hasLooseApostrophe before (t ++ r) = hasLooseApostrophe (some c) r := by
    intro t
    induction t with
    | nil => exact fun _ hne => absurd rfl hne
    | cons c t ih =>
      intro before _ h
      obtain ⟨hc, ht⟩ := List.forall_mem_cons.1 h
      have hne : (c == '\'') = false := beq_eq_false_iff_ne.2 (digit_ne hc (by decide))
      have hstep : hasLooseApostrophe before (c :: (t ++ r)) = hasLooseApostrophe (some c) (t ++ r) := by
        rw [hasLooseApostrophe, hne, Bool.false_and, Bool.false_or]
      rw [List.cons_append, hstep]
      by_cases hnil : t = []
      · subst hnil
        exact ⟨c, hc, rfl⟩
      · exact ih (some c) hnil ht
  exact hall n.text before n.text_ne_nil fun _ => Numeral.isAsciiDigit_of_mem

theorem isDigitLike_of_isAsciiDigit {c : Char} (h : isAsciiDigit c = true) :
    isDigitLike c = true := by
  rw [isDigitLike, isDecimalDigit_of_isAsciiDigit h, Bool.true_or]

/-- What ends in two apostrophes keeps them. -/
theorem stripApostrophe_double (t : Text) :
    stripApostrophe (t ++ ['\'', '\'']) = .ok ⟨t ++ ['\'', '\''], []⟩ := by
  unfold stripApostrophe
  rw [List.reverse_append]
  rfl

theorem readPeriod_numeral (hn : IsCount n) :
    readPeriod n.text = .ok (some ⟨n.value, none, none⟩) := by
  have hcounts : PeriodNumerals.AreCounts ⟨none, n, none⟩ := by
    simpa [PeriodNumerals.AreCounts, PeriodNumerals.toList] using hn
  exact readPeriod_toText hcounts

/-- A numeral in range has the standard form, even if it is so small that it is not read so. -/
theorem isStandard_numeral (hn : IsCount n) : isStandard n.text = .ok true := by
  obtain ⟨c, cs, htext, hc⟩ := n.exists_text_eq_cons
  have hsigns := not_mem_signs_of_isAsciiDigit hc
  simp only [List.mem_cons, List.not_mem_nil, or_false, not_or] at hsigns
  have hsandclock : readSandclock n.text = .ok none := by
    unfold readSandclock
    split
    · rename_i heq
      exact absurd (List.cons.inj (htext.symm.trans heq)).1 hsigns.2.2
    · rfl
  have hsign : (n.text == ['?'] || n.text == ['-']) = false := by
    simp [htext, hsigns.1, hsigns.2.1]
  have hcolon : n.text.contains ':' = false := by
    simpa using n.not_mem_text (c := ':') (by decide)
  unfold isStandard
  rw [hsign, hsandclock, hcolon, readPeriod_numeral hn]
  rfl

theorem stripApostrophe_numeral (hn : IsCount n) :
    stripApostrophe (n.text ++ ['\'']) = .ok ⟨n.text, [.strippedApostrophe]⟩ := by
  obtain ⟨u, c, hu, hc⟩ := n.exists_text_eq_concat
  have hreverse : (n.text ++ ['\'']).reverse = '\'' :: c :: u.reverse := by simp [hu]
  unfold stripApostrophe
  rw [hreverse]
  split
  · rename_i heq
    exact absurd (List.cons.inj (List.cons.inj heq).2).1 (digit_ne hc (by decide))
  · rw [List.dropLast_concat, isStandard_numeral hn]
    rfl
  · rename_i _ hother
    exact absurd rfl (hother _)

/-- A value that starts with a numeral is tidied at its end only. -/
theorem tidy_numeral {r : Text} {final : Tidied} (h : ∀ c ∈ r, isPlain c = true ∨ c = '\'')
    (hloose : ∀ c, isAsciiDigit c = true → hasLooseApostrophe (some c) r = false)
    (hfinal : stripApostrophe (n.text ++ r) = .ok final) : tidy (n.text ++ r) = .ok final := by
  refine tidy_of_visible (by simp [n.text_ne_nil]) ?_ ?_ ?_ hfinal
  · intro c hc
    rcases List.mem_append.1 hc with hc | hc
    · exact Or.inl (isPlain_of_isAsciiDigit (n.isAsciiDigit_of_mem hc))
    · exact h c hc
  · obtain ⟨c, cs, htext, hc⟩ := n.exists_text_eq_cons
    rw [htext, List.cons_append]
    exact isEnclosed_of_head (isQuote_of_isPlain (isPlain_of_isAsciiDigit hc)) _
  · obtain ⟨c, hc, hskip⟩ := hasLooseApostrophe_numeral n none r
    rw [hskip, hloose c hc]

/-- **The apostrophe of a single number** is taken away. -/
theorem tidy_apostrophe (hn : IsCount n) :
    tidy (n.text ++ ['\'']) = .ok ⟨n.text, [.strippedApostrophe]⟩ := by
  refine tidy_numeral (by simp) (fun c hc => ?_) (stripApostrophe_numeral hn)
  simp [hasLooseApostrophe, isDigitLike_of_isAsciiDigit hc]

/-- Minutes with an apostrophe and seconds with two, as they are written. -/
def minutesWithSeconds (n s : Numeral) : Text := n.text ++ '\'' :: '+' :: (s.text ++ ['\'', '\''])

theorem tidy_minutesWithSeconds (n s : Numeral) :
    tidy (minutesWithSeconds n s) = .ok ⟨minutesWithSeconds n s, []⟩ := by
  refine tidy_numeral ?_ ?_ ?_
  · intro c hc
    simp only [List.mem_cons, List.mem_append, List.not_mem_nil, or_false] at hc
    rcases hc with rfl | rfl | hc | rfl | rfl
    · exact Or.inr rfl
    · exact Or.inl (by decide)
    · exact Or.inl (isPlain_of_isAsciiDigit (s.isAsciiDigit_of_mem hc))
    · exact Or.inr rfl
    · exact Or.inr rfl
  · intro c hc
    obtain ⟨d, hd, hskip⟩ := hasLooseApostrophe_numeral s (some '+') ['\'', '\'']
    simp only [hasLooseApostrophe, Option.any_some, isDigitLike_of_isAsciiDigit hc, hskip,
      isDigitLike_of_isAsciiDigit hd]
    rfl
  · have hends : minutesWithSeconds n s = (n.text ++ '\'' :: '+' :: s.text) ++ ['\'', '\''] := by
      simp [minutesWithSeconds]
    show stripApostrophe (minutesWithSeconds n s) = _
    rw [hends, stripApostrophe_double]

/-! ## A single number -/

/-- **A single number** is read as seconds from sixty on. -/
theorem readStandard_numeral (hn : IsCount n) : readStandard n.text =
    .ok (if n.value < 60 then none else some (.periods ⟨n.value, none, none⟩ [] false)) := by
  obtain ⟨c, cs, htext, hc⟩ := n.exists_text_eq_cons
  have hcolon : ':' ∉ n.text := n.not_mem_text (by decide)
  rw [htext] at hcolon
  rw [htext, readStandard_of_single (not_mem_signs_of_isAsciiDigit hc) hcolon, ← htext, readSingle,
    readPeriod_numeral hn]
  by_cases hsmall : n.value < 60
  · rw [if_pos hsmall]
    show Except.ok (if decide (n.value < 60) = true then none else _) = _
    rw [if_pos (by simpa using hsmall)]
  · rw [if_neg hsmall]
    show Except.ok (if decide (n.value < 60) = true then none else _) = _
    rw [if_neg (by simpa using hsmall)]

/-- Below sixty the number is taken for minutes. -/
theorem infer_smallNumber (hn : IsCount n) (hsmall : n.value < 60) :
    infer n.text = .ok (some (.single .smallNumberAsMinutes (minutesPeriod n.value none none))) := by
  have hends : EndsNumeral [] := rfl
  have hsmallest : ∀ c ∈ ([] : Text), isSmall c = true := by simp
  have hfide : fideAdditional? (n.text ++ []) = none := bind_number? hends _
  have hrest := infer_numeral hsmallest (apostrophePerMove?_numeral hends rfl)
    (stageAndRest?_numeral hends rfl) hfide (triplePlus?_numeral hends rfl)
    (twoStageSlash?_numeral hends rfl)
  rw [firstGuess_of_none (inferCompactMinuteSecond_numeral hends hsmallest rfl),
    firstGuess_of_none (inferClockStyle_numeral hends hsmallest rfl), List.append_nil] at hrest
  have hapostrophes : inferApostrophes n.text = .ok none := inferApostrophes_append_numeral [] n
  have hbase : inferSmallBase n.text = .ok none := by
    unfold inferSmallBase
    rw [List.splitOn_eq_singleton (n.not_mem_text (by decide))]
  have hnumber : inferSmallNumber n.text
      = .ok (some (.single .smallNumberAsMinutes (minutesPeriod n.value none none))) := by
    have hsigns : (n.text.any fun c => c == '+' || c == '/' || c == ':') = false := by
      rw [List.any_eq_false]
      intro c hc
      have hdigit := n.isAsciiDigit_of_mem hc
      simp only [Bool.or_eq_true, beq_iff_eq]
      rintro ((rfl | rfl) | rfl) <;> exact absurd hdigit (by decide)
    unfold inferSmallNumber
    rw [hsigns, hn.readCount]
    show Except.ok (if n.value < 60 then some _ else none) = _
    rw [if_pos hsmall]
  rw [hrest, firstGuess_of_none hapostrophes, firstGuess_of_none hbase, firstGuess_of_some hnumber]

/-! ## Minutes with seconds for each move -/

theorem bne_of_not_mem {sep : Char} {u : Text} (h : sep ∉ u) : ∀ c ∈ u, (c != sep) = true := by
  intro c hc
  rw [bne_iff_ne]
  rintro rfl
  exact h hc

theorem cutAt_append {sep : Char} {u : Text} (h : sep ∉ u) (t : Text) :
    cutAt sep (u ++ sep :: t) = (u, some t) := by
  have hpass := bne_of_not_mem h
  unfold cutAt
  rw [List.takeWhile_append_of_pos hpass, List.dropWhile_append_of_pos hpass,
    List.takeWhile_cons_of_neg (by simp), List.dropWhile_cons_of_neg (by simp), List.append_nil]

theorem cutAt_of_not_mem {sep : Char} {u : Text} (h : sep ∉ u) : cutAt sep u = (u, none) := by
  unfold cutAt
  rw [List.dropWhile_eq_nil_iff.2 (bne_of_not_mem h)]

theorem readStandard_minutesWithSeconds (n s : Numeral) :
    readStandard (minutesWithSeconds n s) = .ok none := by
  obtain ⟨c, cs, htext, hc⟩ := n.exists_text_eq_cons
  have hparts : minutesWithSeconds n s = (n.text ++ ['\'']) ++ '+' :: (s.text ++ ['\'', '\'']) := by
    simp [minutesWithSeconds]
  have hcons : minutesWithSeconds n s
      = c :: (cs ++ '\'' :: '+' :: (s.text ++ ['\'', '\''])) := by
    rw [minutesWithSeconds, htext, List.cons_append]
  have hdigit : ∀ d, isAsciiDigit d = false → d ∉ n.text ∧ d ∉ s.text :=
    fun d hd => ⟨n.not_mem_text hd, s.not_mem_text hd⟩
  have hcolon : ':' ∉ minutesWithSeconds n s := by
    simp [minutesWithSeconds, hdigit ':' (by decide)]
  have hbase : readBase (n.text ++ ['\'']) = .ok none :=
    readBase_of_mem (c := '\'') (by simp [hdigit '/' (by decide)]) (by simp) (by decide)
  rw [hcons] at hparts hcolon ⊢
  exact readStandard_of_readBase hparts (not_mem_signs_of_isAsciiDigit hc) hcolon
    (by simp [hdigit '+' (by decide)]) hbase

theorem inferApostrophes_minutesWithSeconds (hn : IsCount n) (hs : IsCount s) :
    inferApostrophes (minutesWithSeconds n s) = .ok (some
      (.single .apostropheNotation (minutesPeriod n.value none (some s.value)))) := by
  have hreverse : (minutesWithSeconds n s).reverse
      = '\'' :: '\'' :: (n.text ++ '\'' :: '+' :: s.text).reverse := by
    simp [minutesWithSeconds]
  have hne : s.text.isEmpty = false := by simpa using s.text_ne_nil
  unfold inferApostrophes
  rw [hreverse]
  split
  · rename_i reversed heq
    rw [← (List.cons.inj (List.cons.inj heq).2).2, List.reverse_reverse,
      cutAt_append (n.not_mem_text (by decide))]
    dsimp only
    rw [hn.readCount]
    show (do
      let s ← if s.text.isEmpty then Except.ok (some 0) else readCount s.text
      return s.map fun s => Guess.single .apostropheNotation (minutesPeriod n.value none (some s))) = _
    rw [hne, if_neg Bool.false_ne_true, hs.readCount]
    rfl
  · rename_i hother heq
    exact absurd (List.cons.inj heq).2.symm (hother _)
  · rename_i hother _
    exact absurd rfl (hother _)

/-- **With seconds for each move** the number is in minutes at every size. -/
theorem infer_minutesWithSeconds (hn : IsCount n) (hs : IsCount s) :
    infer (minutesWithSeconds n s) = .ok (some
      (.single .apostropheNotation (minutesPeriod n.value none (some s.value)))) := by
  have hends : EndsNumeral ('\'' :: '+' :: (s.text ++ ['\'', '\''])) := rfl
  have hsmall : ∀ c ∈ '\'' :: '+' :: (s.text ++ ['\'', '\'']), isSmall c = true := by
    intro c hc
    simp only [List.mem_cons, List.mem_append, List.not_mem_nil, or_false] at hc
    rcases hc with rfl | rfl | hc | rfl | rfl
    · decide
    · decide
    · exact isSmall_of_isAsciiDigit (s.isAsciiDigit_of_mem hc)
    · decide
    · decide
  have hmove : apostrophePerMove? (minutesWithSeconds n s) = none := by
    refine (bind_number? hends _).trans ?_
    show number? (s.text ++ ['\'', '\'']) >>= _ = none
    exact (bind_number? (r := ['\'', '\'']) rfl _).trans rfl
  have hstage : ∀ needsWord, stageAndRest? needsWord (minutesWithSeconds n s) = none :=
    fun _ => (bind_number? hends _).trans rfl
  have hfide : fideAdditional? (minutesWithSeconds n s) = none := (bind_number? hends _).trans rfl
  have hcompact : inferCompactMinuteSecond (minutesWithSeconds n s) = .ok none :=
    inferCompactMinuteSecond_numeral hends hsmall rfl
  have hclock : inferClockStyle (minutesWithSeconds n s) = .ok none :=
    inferClockStyle_numeral hends hsmall rfl
  have hrest := infer_numeral hsmall hmove hstage hfide (triplePlus?_numeral hends rfl)
    (twoStageSlash?_numeral hends rfl)
  exact hrest.trans (by
    rw [← minutesWithSeconds, firstGuess_of_none hcompact, firstGuess_of_none hclock,
      firstGuess_of_some (inferApostrophes_minutesWithSeconds hn hs)])

/-! ## Seconds with two apostrophes -/

theorem tidy_doubleApostrophe (n : Numeral) :
    tidy (n.text ++ ['\'', '\'']) = .ok ⟨n.text ++ ['\'', '\''], []⟩ := by
  refine tidy_numeral (by simp) (fun c hc => ?_) (stripApostrophe_double n.text)
  simp [hasLooseApostrophe, isDigitLike_of_isAsciiDigit hc]

theorem readStandard_doubleApostrophe (n : Numeral) :
    readStandard (n.text ++ ['\'', '\'']) = .ok none := by
  obtain ⟨c, cs, htext, hc⟩ := n.exists_text_eq_cons
  have hcolon : ':' ∉ n.text ++ ['\'', '\''] := by simp [n.not_mem_text (c := ':') (by decide)]
  have hplus : '+' ∉ n.text ++ ['\'', '\''] := by simp [n.not_mem_text (c := '+') (by decide)]
  have hslash : '/' ∉ n.text ++ ['\'', '\''] := by simp [n.not_mem_text (c := '/') (by decide)]
  have hperiod : readPeriod (n.text ++ ['\'', '\'']) = .ok none := by
    unfold readPeriod
    rw [List.splitOn_eq_singleton hplus]
    exact readBase_of_mem hslash (c := '\'') (by simp) (by decide)
  rw [htext, List.cons_append] at hcolon hperiod ⊢
  rw [readStandard_of_single (not_mem_signs_of_isAsciiDigit hc) hcolon, readSingle, hperiod]
  rfl

theorem inferApostrophes_doubleApostrophe (hn : IsCount n) :
    inferApostrophes (n.text ++ ['\'', '\'']) = .ok (some
      (.single .apostropheNotation (secondsPeriod n.value none none))) := by
  have hreverse : (n.text ++ ['\'', '\'']).reverse = '\'' :: '\'' :: n.text.reverse := by simp
  have hcut : cutAt '\'' n.text = (n.text, none) := cutAt_of_not_mem (n.not_mem_text (by decide))
  unfold inferApostrophes
  rw [hreverse]
  simp only [List.reverse_reverse, hcut, hn.readCount]
  rfl

theorem infer_doubleApostrophe (hn : IsCount n) : infer (n.text ++ ['\'', '\'']) = .ok (some
    (.single .apostropheNotation (secondsPeriod n.value none none))) := by
  have hends : EndsNumeral ['\'', '\''] := rfl
  have hsmall : ∀ c ∈ ['\'', '\''], isSmall c = true := List.all_eq_true.1 (by decide)
  have hmove : apostrophePerMove? (n.text ++ ['\'', '\'']) = none :=
    (bind_number? hends _).trans rfl
  have hstage : ∀ needsWord, stageAndRest? needsWord (n.text ++ ['\'', '\'']) = none :=
    fun _ => (bind_number? hends _).trans rfl
  have hfide : fideAdditional? (n.text ++ ['\'', '\'']) = none := (bind_number? hends _).trans rfl
  rw [infer_numeral hsmall hmove hstage hfide (triplePlus?_numeral hends rfl)
      (twoStageSlash?_numeral hends rfl),
    firstGuess_of_none (inferCompactMinuteSecond_numeral hends hsmall rfl),
    firstGuess_of_none (inferClockStyle_numeral hends hsmall rfl),
    firstGuess_of_some (inferApostrophes_doubleApostrophe hn)]

end TimeControl

open TimeControl

/-- **Seconds with two apostrophes** keep their number. -/
theorem normalize_doubleApostrophe {n : Numeral} (hn : IsCount n) :
    normalizeTimeControl (n.text ++ ['\'', '\'']) = .ok (some (decimal n.value)) := by
  have hrange : inRange? n.value = some n.value := inRange?_eq_some_iff.2 ⟨rfl, hn.inRange⟩
  have hblank := isBlankText_numeral n ['\'', '\'']
  rw [normalizeTimeControl_of_tidy hblank (tidy_doubleApostrophe n) (by simp),
    readQualified_of_infer (readStandard_doubleApostrophe n) (infer_doubleApostrophe hn),
    secondsPeriod, hrange]
  show Except.ok (some (periodsText [⟨n.value, none, none⟩])) = _
  rw [periodsText_singleton]
  simp [Period.toText]

/-- A single number with an apostrophe is read like the number without it. -/
theorem normalize_numeralApostrophe {n : Numeral} (hn : IsCount n) :
    normalizeTimeControl (n.text ++ ['\''])
      = .ok (some (decimal (if n.value < 60 then 60 * n.value else n.value))) := by
  have hblank := isBlankText_numeral n ['\'']
  have htidy := tidy_apostrophe hn
  have hstandard := readStandard_numeral hn
  by_cases hsmall : n.value < 60
  · rw [if_pos hsmall] at hstandard ⊢
    rw [normalizeTimeControl_of_tidy hblank htidy (by simp),
      readQualified_of_infer hstandard (infer_smallNumber hn hsmall)]
    show Except.ok (TimeControl.normalized? _) = _
    rw [normalized?_minutes, if_pos (by simp only [maxCount]; omega)]
    simp [Period.toText]
  · rw [if_neg hsmall] at hstandard ⊢
    rw [normalizeTimeControl_of_tidy hblank htidy (by simp), readQualified_of_standard hstandard]
    show Except.ok (some (periodsText _)) = _
    rw [periodsText_singleton]
    simp [Period.toText]

/-- Taken for minutes or for seconds. -/
theorem decimal_apostrophe_iff (k : Nat) :
    decimal (if k < 60 then 60 * k else k) = decimal (60 * k) ↔ k < 60 := by
  constructor
  · intro h
    by_contra hlarge
    rw [if_neg hlarge] at h
    have hsame := decimal_injective h
    omega
  · intro h
    rw [if_pos h]

/-- **Minutes with an apostrophe.** A single number with an apostrophe is taken for minutes if and
only if it is less than sixty, and for seconds otherwise. With seconds for each move behind it the
number is taken for minutes always; there is no standard form if they are too many in seconds. -/
theorem normalize_apostrophes (n s : Numeral) (hn : IsCount n) (hs : IsCount s) :
    normalizeTimeControl (n.text ++ ['\''])
        = .ok (some (decimal (if n.value < 60 then 60 * n.value else n.value))) ∧
      (normalizeTimeControl (n.text ++ ['\'']) = .ok (some (decimal (60 * n.value))) ↔
        n.value < 60) ∧
      normalizeTimeControl (n.text ++ '\'' :: '+' :: (s.text ++ ['\'', '\'']))
        = .ok (if 60 * n.value ≤ maxCount then
            some (decimal (60 * n.value) ++ '+' :: decimal s.value) else none) := by
  have hsingle := normalize_numeralApostrophe hn
  refine ⟨hsingle, ?_, ?_⟩
  · rw [hsingle, Except.ok.injEq, Option.some_inj, decimal_apostrophe_iff]
  · have hblank := isBlankText_numeral n ('\'' :: '+' :: (s.text ++ ['\'', '\'']))
    have hinfer := infer_minutesWithSeconds hn hs
    rw [normalizeTimeControl_of_tidy hblank (tidy_minutesWithSeconds n s) (by simp),
      readQualified_of_infer (readStandard_minutesWithSeconds n s) hinfer]
    show Except.ok (TimeControl.normalized? _) = _
    rw [normalized?_minutes]
    simp [Period.toText]

/-- Three minutes, alone and with two seconds for each move. -/
theorem normalize_apostrophes_threeMinutes :
    normalizeTimeControl "3'".toList = .ok (some "180".toList) ∧
      normalizeTimeControl "3'+2''".toList = .ok (some "180+2".toList) := by
  let three : Numeral := ⟨"3".toList, by decide⟩
  let two : Numeral := ⟨"2".toList, by decide⟩
  obtain ⟨hsingle, _, hseconds⟩ := normalize_apostrophes three two ⟨by decide, by decide⟩
    ⟨by decide, by decide⟩
  have hthree : three.value = 3 := by decide
  have htwo : two.value = 2 := by decide
  have hminutes : decimal (60 * 3) = "180".toList := by decide
  rw [hthree, if_pos (by decide), hminutes] at hsingle
  rw [hthree, htwo, if_pos (by decide), hminutes] at hseconds
  exact ⟨hsingle, hseconds⟩

/-- Ninety minutes with an apostrophe are read as ninety seconds. -/
theorem ninetyMinutes_as_seconds : 60 * 90 ≤ maxCount ∧
    normalizeTimeControl "90'".toList = .ok (some "90".toList) ∧
    "90".toList ≠ decimal (60 * 90) := by
  have hninety : IsCount ⟨"90".toList, by decide⟩ := ⟨by decide, by decide⟩
  exact ⟨by decide, normalize_numeralApostrophe hninety, by decide⟩

end Scoresheet
