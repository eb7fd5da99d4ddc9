import Scoresheet.Proofs.TimeControl.MinuteWording
import Scoresheet.Proofs.TimeControl.Readings

/-!
# Numerals that are out of range

A value is read by certain numerals in it (`IsReadBy`). Those that are required are in range, so a
value with one out of range there is not read in this way. The others are dropped if they are out of
range, which happens in two interpretations only: the increment of a game, and in free text what
stands beside the minutes that count.
-/

namespace Scoresheet

open Text

namespace TimeControl

variable {t : Text} {found : TimeControl × List Remark}

/-- The numerals by which a value is found to be what it is. -/
inductive IsReadBy (t : Text) : TimeControl × List Remark → WordingNumerals → Prop
  | sign {control : TimeControl} (h : control = .unknown true ∨ control = .unlimited) :
      IsReadBy t (control, []) (.ofRequired [])
  | sandclock (n : Numeral) (h : t = '*' :: n.text) :
      IsReadBy t (.sandclock n.value, []) (.ofRequired [n.text])
  | periods (first : PeriodNumerals) (later : List PeriodNumerals)
      (h : t = join [':'] ((first :: later).map PeriodNumerals.toText)) :
      IsReadBy t (.periods first.period (later.map PeriodNumerals.period) false, [])
        (.ofRequired ((first :: later).flatMap fun s => s.toList.map Numeral.text))
  | wording (g : Guess) {ns : WordingNumerals} (h : numeralsIn? t g.how = some ns) :
      IsReadBy t (g.control, g.remarks) ns

theorem exists_isReadBy_of_standard {control : TimeControl} (h : Standard t control) :
    ∃ ns, IsReadBy t (control, []) ns ∧ ns.optional = [] ∧ ∀ n ∈ ns.required, n.IsInRange := by
  cases h with
  | unknown => exact ⟨_, .sign (Or.inl rfl), rfl, by simp [WordingNumerals.ofRequired]⟩
  | unlimited => exact ⟨_, .sign (Or.inr rfl), rfl, by simp [WordingNumerals.ofRequired]⟩
  | @sandclock n hn =>
    refine ⟨_, .sandclock n rfl, rfl, fun u hu => ?_⟩
    exact ⟨n, List.mem_singleton.1 hu, hn.inRange⟩
  | @periods first later hfirst hlater =>
    refine ⟨_, .periods first later rfl, rfl, fun u hu => ?_⟩
    obtain ⟨s, hs, hu⟩ := List.mem_flatMap.1 hu
    obtain ⟨n, hn, rfl⟩ := List.mem_map.1 hu
    have hcounts : s.AreCounts := by
      rcases List.mem_cons.1 hs with rfl | hs
      · exact hfirst
      · exact hlater s hs
    exact ⟨n, rfl, (hcounts n hn).inRange⟩

/-- Only two interpretations have numerals that may be dropped. -/
theorem optional_eq_nil {how : Interpretation} {ns : WordingNumerals}
    (h : numeralsIn? t how = some ns) (hgame : how ≠ .gameMinutes) (hparts : how ≠ .freeText) :
    ns.optional = [] := by
  have hrequired : ∀ {numerals : Option (List Text)},
      numerals.map WordingNumerals.ofRequired = some ns → ns.optional = [] := by
    intro numerals h
    obtain ⟨_, _, rfl⟩ := Option.map_eq_some_iff.1 h
    rfl
  cases how with
  | gameMinutes => exact absurd rfl hgame
  | freeText => exact absurd rfl hparts
  | smallNumberAsMinutes =>
    rw [← Option.some.inj h]
    rfl
  | _ => exact hrequired h

/-- **What a value is read by is in range**, unless it is dropped. -/
theorem exists_isReadBy (h : FoundIn t found) :
    ∃ ns, IsReadBy t found ns ∧ (∀ n ∈ ns.required, n.IsInRange) ∧
      (ns.optional = [] ∨ .interpreted .gameMinutes ∈ found.2 ∨ .interpreted .freeText ∈ found.2) := by
  cases h with
  | standard h =>
    obtain ⟨ns, hread, hoptional, hrange⟩ := exists_isReadBy_of_standard h
    exact ⟨ns, hread, hrange, Or.inl hoptional⟩
  | @guess g hfits =>
    obtain ⟨ns, hns, hrange⟩ := hfits.numerals
    have hremark : .interpreted g.how ∈ g.remarks := List.mem_cons_self
    refine ⟨ns, .wording g hns, hrange, ?_⟩
    by_cases hgame : g.how = .gameMinutes
    · exact Or.inr (Or.inl (hgame ▸ hremark))
    · by_cases hparts : g.how = .freeText
      · exact Or.inr (Or.inr (hparts ▸ hremark))
      · exact Or.inl (optional_eq_nil hns hgame hparts)

end TimeControl

open TimeControl

/-- What any value without a run of too many digits is read by. -/
theorem exists_reading_isReadBy {raw : Text} (hlong : ¬HasLongRun raw) :
    ∃ reading, readTimeControl raw = .ok reading ∧ ∀ r, reading = some r →
      r.control = .unknown false ∨ ∃ tidied t remarks ns, tidy raw = .ok tidied ∧
        (t = tidied.text ∨ dropQualifier? tidied.text = some t) ∧
        IsReadBy t (r.control, remarks) ns ∧ (∀ n ∈ ns.required, n.IsInRange) ∧
        (ns.optional = [] ∨ .interpreted .gameMinutes ∈ r.remarks ∨
          .interpreted .freeText ∈ r.remarks) := by
  cases hblank : isBlankText raw with
  | true => exact ⟨none, by rw [readTimeControl, hblank, if_pos rfl], by simp⟩
  | false =>
    obtain ⟨tidied, htidy, hread | ⟨found, hfound, hread⟩⟩ := readTimeControl_cases hlong hblank
    · refine ⟨_, hread, fun r hr => Or.inl ?_⟩
      rw [← Option.some.inj hr]
    · refine ⟨_, hread, fun r hr => Or.inr ?_⟩
      rw [← Option.some.inj hr]
      cases foundQualified_of_readQualified hfound with
      | whole hfound =>
        obtain ⟨ns, hns, hrange, hoptional⟩ := exists_isReadBy hfound
        refine ⟨tidied, tidied.text, found.2, ns, htidy, Or.inl rfl, hns, hrange, ?_⟩
        exact hoptional.imp_right (Or.imp (List.mem_append_right _) (List.mem_append_right _))
      | @core core control remarks hcore hrest =>
        obtain ⟨ns, hns, hrange, hoptional⟩ := exists_isReadBy hrest
        refine ⟨tidied, core, remarks, ns, htidy, Or.inr hcore, hns, hrange, ?_⟩
        have hbehind : ∀ remark ∈ remarks, remark ∈ tidied.remarks ++ .ignoredQualifier :: remarks :=
          fun remark h => List.mem_append_right _ (List.mem_cons_of_mem _ h)
        exact hoptional.imp_right (Or.imp (hbehind _) (hbehind _))

/-- **Numerals that are out of range.** In the two wordings of minutes with an increment, the
numerals may have any number of digits: if the minutes are out of range in seconds there is no
standard form, and an increment that is out of range is dropped; too many digits are an error. So the
increment is checked exactly if the numerals are converted and it is in range, or the minutes are not.
Any value without a run of too many digits is read, and if something is made of it, the numerals by
which it is read are in range, apart from the optional ones of a game and of free text. -/
theorem oversized_numerals (b i : Numeral) {raw : Text} (hlong : ¬HasLongRun raw) :
    normalizeTimeControl ('G' :: '/' :: (b.text ++ '+' :: i.text)) = minutesAndIncrement b i ∧
    normalizeTimeControl (b.text ++ (" min + ".toList ++ (i.text ++ " sec per move".toList)))
      = minutesAndIncrement b i ∧
    (minutesAndIncrement b i = .ok (checkedMinutes? b i) ↔
      b.text.length ≤ maxDigits ∧ i.text.length ≤ maxDigits ∧
        (i.value ≤ maxCount ∨ maxCount < 60 * b.value)) ∧
    ∃ reading, readTimeControl raw = .ok reading ∧ ∀ r, reading = some r →
      r.control = .unknown false ∨ ∃ tidied t remarks ns, tidy raw = .ok tidied ∧
        (t = tidied.text ∨ dropQualifier? tidied.text = some t) ∧
        IsReadBy t (r.control, remarks) ns ∧ (∀ n ∈ ns.required, n.IsInRange) ∧
        (ns.optional = [] ∨ .interpreted .gameMinutes ∈ r.remarks ∨
          .interpreted .freeText ∈ r.remarks) :=
  ⟨normalize_gameWording b i, normalize_minuteWording b i, minutesAndIncrement_eq_checked_iff,
    exists_reading_isReadBy hlong⟩

/-- A game of five minutes. -/
theorem oversized_numerals_fiveMinutes :
    normalizeTimeControl "G/5+3".toList = .ok (some "300+3".toList) ∧
      normalizeTimeControl "5 min + 3 sec per move".toList = .ok (some "300+3".toList) ∧
      ¬HasLongRun "5 min 3 sec".toList ∧
      ∃ reading, readTimeControl "5 min 3 sec".toList = .ok reading := by
  let five : Numeral := ⟨"5".toList, by decide⟩
  let three : Numeral := ⟨"3".toList, by decide⟩
  have hwritten : minutesAndIncrement five three = .ok (some "300+3".toList) := by decide
  have hlong : ¬HasLongRun "5 min 3 sec".toList := not_hasLongRun_of_length_le (by decide)
  obtain ⟨hgame, hminutes, _, reading, hread, _⟩ := oversized_numerals five three hlong
  exact ⟨hgame.trans hwritten, hminutes.trans hwritten, hlong, reading, hread⟩

/-- An increment of `2 ^ 32` seconds is dropped, though it is out of range. -/
theorem oversized_increment_dropped : maxCount < 4294967296 ∧
    normalizeTimeControl "G/5+4294967296".toList = .ok (some "300".toList) := by
  let five : Numeral := ⟨"5".toList, by decide⟩
  let increment : Numeral := ⟨"4294967296".toList, by decide⟩
  have hwritten : minutesAndIncrement five increment = .ok (some "300".toList) := by decide
  exact ⟨by decide, (normalize_gameWording five increment).trans hwritten⟩

end Scoresheet
