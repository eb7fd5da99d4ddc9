import Scoresheet.Mainline.Subset
import Scoresheet.Proofs.Pgn.GameText
import Scoresheet.Proofs.Pgn.Words

/-!
# Clean texts are read alike in both ways

A clean text has two readings: word by word (`cleanSans?`) and as a game text
(`Mainline.ofMovetext`). The two scanners share no code and differ in the digits and in the markers
of the result that they know. Yet on a clean text whose moves can be made they find the same moves,
and so the quick comparison of two texts never answers otherwise than the thorough one.
-/

namespace Scoresheet

open Text Pgn Chess

/-! ## The words of a clean text -/

/-- A word that can stand in a clean text: it holds neither white space nor the characters of
comments, variations and annotations. -/
def IsPlainWord (w : Text) : Prop := ∀ c ∈ w, isBlank c = false ∧ isAnnotationChar c = false

theorem isWordBreak_of_isPlain {c : Char} (hb : isBlank c = false)
    (ha : isAnnotationChar c = false) : isWordBreak c = false := by
  simp only [isAnnotationChar, List.contains_eq_mem, List.mem_cons, List.not_mem_nil, or_false,
    decide_eq_false_iff_not, not_or] at ha
  simp [isWordBreak, hb, ha]

/-- What a move number looks like. -/
theorem isMoveNumber_cases {w : Text} (h : isMoveNumber w = true) :
    ∃ digits dots, w = digits ++ '.' :: dots ∧ digits ≠ [] ∧
      (∀ c ∈ digits, isDigitLike c = true) ∧ ∀ c ∈ dots, c = '.' := by
  unfold isMoveNumber at h
  split at h
  · rename_i digits rest hcut
    simp only [Bool.and_eq_true, Bool.not_eq_true', Bool.or_eq_true, beq_iff_eq,
      List.all_eq_true] at h
    obtain ⟨⟨hne, hd⟩, hrest⟩ := h
    have hw : w = digits ++ '.' :: rest := by
      unfold cutAt at hcut
      split at hcut
      · simp at hcut
      · rename_i c r hdrop
        simp only [Prod.mk.injEq, Option.some.injEq] at hcut
        have hc : c = '.' := by
          have := List.head?_dropWhile_not (· != '.') w
          rw [hdrop] at this
          simpa using this
        rw [← List.takeWhile_append_dropWhile (p := (· != '.')) (l := w), hdrop, hcut.1, hcut.2, hc]
    refine ⟨digits, rest, hw, by simpa using hne, hd, ?_⟩
    rcases hrest with rfl | rfl <;> simp
  · simp at h

theorem isNumberChar_of_isMoveNumber {w : Text} (h : isMoveNumber w = true) :
    ∀ c ∈ w, IsNumberChar c := by
  obtain ⟨digits, dots, rfl, _, hd, hdots⟩ := isMoveNumber_cases h
  intro c hc
  rcases List.mem_append.1 hc with hc | hc
  · exact Or.inl (hd c hc)
  · rcases List.mem_cons.1 hc with hc | hc
    · exact Or.inr hc
    · exact Or.inr (hdots c hc)

theorem readWord_of_isMoveNumber {w : Text} (h : isMoveNumber w = true) (s : Cursor) :
    s.readWord w = .ok ([], s) := by
  have hn := isNumberChar_of_isMoveNumber h
  have hm : outcomeMarker? w = none := by
    refine outcomeMarker?_eq_none_of_digits ?_ ?_
    · exact fun hc => absurd List.mem_cons_self ((hn _ hc).not_mem (l := ['-']) (by decide))
    · exact fun hc => absurd List.mem_cons_self ((hn _ hc).not_mem (l := ['*']) (by decide))
  rw [s.readWord_of_wordEvents hm (wordEvents_of_digits w hn)]
  simp

theorem outcomeMarker?_of_isResultMarker {w : Text} (h : isResultMarker w = true) :
    outcomeMarker? w = some w := by
  unfold isResultMarker at h
  split at h <;> first | rfl | simp at h

theorem readWord_of_isResultMarker {w : Text} (h : isResultMarker w = true) :
    Cursor.start.readWord w = .ok ([.outcome w], { Cursor.start with finished := true }) := by
  rw [Cursor.readWord, outcomeMarker?_of_isResultMarker h]
  rfl

/-- The moves of a plain word that is read at the start of a game. -/
theorem readWord_of_canonical? {w san : Text} (hp : IsPlainWord w)
    (h : San.canonical? w = some san) :
    Cursor.start.readWord w = .ok ([.san san], .start) := by
  have hw : ∀ c ∈ w, c ∈ alphabet := by
    intro c hc
    rcases San.mem_alphabet_of_canonical? h hc with hc' | rfl
    · exact hc'
    · exact absurd (hp _ hc).1 (by decide)
  have he := wordEvents_move (g := []) h hw (by simp)
  rw [List.append_nil] at he
  rw [Cursor.start.readWord_of_wordEvents (outcomeMarker?_eq_none_of_canonical? h) he]
  rfl

/-! ## The first character of a word -/

theorem head?_of_isMoveNumber {w : Text} (h : isMoveNumber w = true) :
    w.head? ≠ some '[' ∧ w.head? ≠ some '%' := by
  have hn := isNumberChar_of_isMoveNumber h
  have hhead : ∀ d, w.head? = some d → d ∉ ['[', '%'] :=
    fun d hd => (hn d (List.mem_of_mem_head? hd)).not_mem (by decide)
  exact ⟨fun hc => hhead _ hc (by decide), fun hc => hhead _ hc (by decide)⟩

theorem head?_of_isResultMarker {w : Text} (h : isResultMarker w = true) :
    w.head? ≠ some '[' ∧ w.head? ≠ some '%' := by
  unfold isResultMarker at h
  split at h <;> first | decide | simp at h

theorem head?_of_looksLikeMove {w : Text} (h : looksLikeMove w = true) :
    w.head? ≠ some '[' ∧ w.head? ≠ some '%' := by
  rw [looksLikeMove, Bool.or_eq_true] at h
  rcases h with h | h
  · unfold isCastlingWord at h
    split at h
    · rename_i san hs
      obtain ⟨_, hall⟩ := San.mem_alphabet_of_readCastling? hs
      constructor
      · exact fun hc => absurd (hall _ (List.mem_of_mem_head? hc)) (by decide)
      · exact fun hc => absurd (hall _ (List.mem_of_mem_head? hc)) (by decide)
    · simp at h
  · rw [Bool.and_eq_true] at h
    constructor
    · intro hc
      rw [hc] at h
      exact absurd h.1 (by decide)
    · intro hc
      rw [hc] at h
      exact absurd h.1 (by decide)

/-- No word of a clean text starts like a tag pair or like a line that is passed over. -/
theorem head?_of_areCleanWords : ∀ {ws : List Text} {saw : Bool}, areCleanWords saw ws = true →
    ∀ w ∈ ws, w.head? ≠ some '[' ∧ w.head? ≠ some '%'
  | w :: ws, saw, h, v, hv => by
    rw [areCleanWords] at h
    split at h
    · rename_i hn
      rcases List.mem_cons.1 hv with rfl | hv
      · exact head?_of_isMoveNumber hn
      · exact head?_of_areCleanWords h v hv
    · split at h
      · rename_i hr
        simp only [Bool.and_eq_true, List.isEmpty_iff] at h
        rw [h.1, List.mem_singleton] at hv
        subst hv
        exact head?_of_isResultMarker hr
      · rw [Bool.and_eq_true] at h
        rcases List.mem_cons.1 hv with rfl | hv
        · exact head?_of_looksLikeMove h.1
        · exact head?_of_areCleanWords h.2 v hv

/-! ## Both readings -/

/-- The words of a clean text, read as words of a game, report the moves that the quick way finds:
one at least, unless one has been seen. -/
theorem readWords_of_areCleanWords : ∀ {ws : List Text} {saw : Bool} {p : Position}
    {sans : List Text}, areCleanWords saw ws = true → (∀ w ∈ ws, IsPlainWord w) →
    cleanSansFrom p ws = some sans →
    (∃ events s, Cursor.start.readWords ws = .ok (events, s) ∧
      events.filterMap Transcript.san? = sans) ∧ (saw || !sans.isEmpty) = true
  | [], saw, p, sans, hclean, _, hsans => by
    obtain rfl : sans = [] := by simpa [cleanSansFrom, eq_comm] using hsans
    exact ⟨⟨[], .start, rfl, rfl⟩, by simpa [areCleanWords] using hclean⟩
  | w :: ws, saw, p, sans, hclean, hplain, hsans => by
    have hplain' : ∀ v ∈ ws, IsPlainWord v := fun v hv => hplain v (List.mem_cons_of_mem _ hv)
    -- both ways ask the same of a word: is it a number, the result or a move
    rw [areCleanWords] at hclean
    rw [cleanSansFrom] at hsans
    by_cases hn : isMoveNumber w = true
    · rw [if_pos hn] at hclean hsans
      obtain ⟨⟨events, s, hread, hev⟩, hsaw⟩ :=
        readWords_of_areCleanWords hclean hplain' hsans
      refine ⟨⟨events, s, ?_, hev⟩, hsaw⟩
      exact Cursor.readWords_cons.2
        ⟨[], .start, events, readWord_of_isMoveNumber hn _, hread, rfl⟩
    · rw [if_neg hn] at hclean hsans
      by_cases hr : isResultMarker w = true
      · rw [if_pos hr] at hclean hsans
        obtain ⟨hempty, rfl⟩ : ws.isEmpty = true ∧ saw = true := by
          simpa using hclean
        rw [if_pos hempty, Option.some.injEq] at hsans
        obtain rfl := List.isEmpty_iff.1 hempty
        subst hsans
        refine ⟨⟨_, _, Cursor.readWords_cons.2
          ⟨_, _, [], readWord_of_isResultMarker hr, rfl, rfl⟩, rfl⟩, rfl⟩
      · rw [if_neg hr] at hclean hsans
        rw [Bool.and_eq_true] at hclean
        rw [if_pos hclean.1] at hsans
        split at hsans
        · simp at hsans
        · rename_i san hsan
          split at hsans
          · rename_i made _
            obtain ⟨more, hmore, rfl⟩ := Option.map_eq_some_iff.1 hsans
            obtain ⟨⟨events, s, hread, hev⟩, _⟩ :=
              readWords_of_areCleanWords hclean.2 hplain' hmore
            refine ⟨⟨_, s, Cursor.readWords_cons.2 ⟨_, _, events,
              readWord_of_canonical? (hplain w List.mem_cons_self) hsan, hread, rfl⟩, ?_⟩,
              by simp⟩
            rw [← hev]
            rfl
          · simp at hsans

/-- The moves of a game are those that its movetext reports. -/
theorem sans_untagged {m : Movetext} (h : m.ending = .complete) :
    (untagged m).sans = m.events.filterMap Transcript.san? := by
  have hu : (untagged m).events = .beginTags :: .beginMovetext :: (m.events ++ [.endGame]) := by
    rw [untagged, h]
    rfl
  rw [Transcript.sans, hu]
  show (m.events ++ [Event.endGame]).filterMap Transcript.san? = _
  rw [List.filterMap_append]
  exact List.append_nil _

theorem outcome_untagged {m : Movetext} (h : m.ending = .complete) :
    (untagged m).outcome = (m.events.filterMap Transcript.outcome?).getLast? := by
  have hu : (untagged m).events = .beginTags :: .beginMovetext :: (m.events ++ [.endGame]) := by
    rw [untagged, h]
    rfl
  rw [Transcript.outcome, hu]
  show ((m.events ++ [Event.endGame]).filterMap Transcript.outcome?).getLast? = _
  rw [List.filterMap_append]
  exact congrArg List.getLast? (List.append_nil _)

/-- The main line of a movetext whose scan is known. -/
theorem ofMovetext_of_scanText {m : Text} {events : List Event} (hq : StartsQuietly m)
    (hb : isBlankText m = false) (hscan : scanText .start [] m = ⟨events, .complete, []⟩) :
    Mainline.ofMovetext m = .ok ⟨events.filterMap Transcript.san?,
      (events.filterMap Transcript.outcome?).getLast?, false⟩ := by
  have hgame := readGame_of_startsQuietly hq hb
  rw [hscan] at hgame
  have hsans := sans_untagged (m := ⟨events, .complete, []⟩) rfl
  have houtcome := outcome_untagged (m := ⟨events, .complete, []⟩) rfl
  rw [Mainline.ofMovetext, Transcript.first, hgame, ← hsans, ← houtcome]
  rfl

/-- A clean text that is not blank, read as a game text. -/
theorem ofMovetext_of_isClean {m : Text} {sans : List Text} (hb : isBlankText m = false)
    (hclean : isClean m = true) (hsans : cleanSans? m = some sans) :
    ∃ main, Mainline.ofMovetext m = .ok main ∧ main.sans = sans ∧ main.failed = false ∧
      sans ≠ [] := by
  obtain ⟨hann, hwords⟩ : (m.any isAnnotationChar = false) ∧ areCleanWords false (words m) = true :=
    by simpa [isClean, hb] using hclean
  have hplainChar : ∀ c ∈ m, isAnnotationChar c = false := by
    simpa using hann
  have hplain : ∀ w ∈ words m, IsPlainWord w := by
    intro w hw c hc
    obtain ⟨hcm, hcb⟩ := mem_of_mem_words hw hc
    exact ⟨hcb, hplainChar c hcm⟩
  have hheads := head?_of_areCleanWords hwords
  obtain ⟨⟨events, s, hread, hev⟩, hne⟩ := readWords_of_areCleanWords hwords hplain hsans
  have hscan : scanText .start [] m = ⟨events, .complete, []⟩ := by
    refine scanText_words m rfl ?_ hheads hread
    intro c hc
    cases hcb : isBlank c with
    | true => exact Or.inl rfl
    | false => exact Or.inr (isWordBreak_of_isPlain hcb (hplainChar c hc))
  have hmain := ofMovetext_of_scanText (startsQuietly_of_words hheads) hb hscan
  exact ⟨_, hmain, hev, rfl, by simpa using hne⟩

theorem ofMovetext_of_isBlankText {m : Text} (h : isBlankText m = true) :
    Mainline.ofMovetext m = .ok ⟨[], none, false⟩ := by
  rw [Mainline.ofMovetext, Transcript.first, readGame_of_isBlankText h]
  rfl

/-- A clean text, read as a game text. -/
theorem ofMovetext_of_cleanSans? {m : Text} {sans : List Text} (hclean : isClean m = true)
    (hsans : cleanSans? m = some sans) :
    ∃ main, Mainline.ofMovetext m = .ok main ∧ main.sans = sans ∧ main.failed = false ∧
      hasNoMainline m main = false := by
  cases hb : isBlankText m with
  | true =>
    refine ⟨_, ofMovetext_of_isBlankText hb, ?_, rfl, by simp [hasNoMainline, hb]⟩
    simpa [cleanSans?, words_eq_nil_of_isBlankText hb, cleanSansFrom] using hsans
  | false =>
    obtain ⟨main, hmain, hs, hf, hne⟩ := ofMovetext_of_isClean hb hclean hsans
    refine ⟨main, hmain, hs, hf, ?_⟩
    simp [hasNoMainline, hf, hs, hne]

/-- What the quick comparison rests on. -/
theorem cleanSans?_of_isSubsetFast {short long : Text} {b : Bool}
    (h : isSubsetFast short long = some b) :
    ∃ s l, isClean short = true ∧ isClean long = true ∧ cleanSans? short = some s ∧
      cleanSans? long = some l ∧ b = s.isPrefixOf l := by
  unfold isSubsetFast at h
  split at h
  · rename_i hclean
    rw [Bool.and_eq_true] at hclean
    split at h
    · rename_i s l hs hl
      exact ⟨s, l, hclean.1, hclean.2, hs, hl, (Option.some.inj h).symm⟩
    · simp at h
  · simp at h

theorem isSubsetByReading_of_isSubsetFast {short long : Text} {b : Bool}
    (h : isSubsetFast short long = some b) : isSubsetByReading short long = .ok b := by
  obtain ⟨s, l, hcs, hcl, hs, hl, rfl⟩ := cleanSans?_of_isSubsetFast h
  obtain ⟨ms, hms, rfl, _, hns⟩ := ofMovetext_of_cleanSans? hcs hs
  obtain ⟨ml, hml, rfl, _, hnl⟩ := ofMovetext_of_cleanSans? hcl hl
  simp [isSubsetByReading, hms, hml, hns, hnl, bind, Except.bind, pure, Except.pure]

/-- The quick way changes no answer. -/
theorem isSubset_eq_isSubsetByReading (short long : Text) :
    isSubset short long = isSubsetByReading short long := by
  unfold isSubset
  cases h : isSubsetFast short long with
  | some b => exact (isSubsetByReading_of_isSubsetFast h).symm
  | none => rfl

/-- **The quick comparison agrees with the thorough one**, and a clean text whose moves can be made
is read as a game text with these moves and without a fault. -/
theorem isSubsetFast_agrees :
    (∀ (short long : Text) (b : Bool), isSubsetFast short long = some b →
      isSubsetByReading short long = .ok b) ∧
    ∀ (m : Text) (sans : List Text), isClean m = true → cleanSans? m = some sans →
      ∃ main, Mainline.ofMovetext m = .ok main ∧ main.sans = sans ∧ main.failed = false ∧
        hasNoMainline m main = false :=
  ⟨fun _ _ _ => isSubsetByReading_of_isSubsetFast, fun _ _ => ofMovetext_of_cleanSans?⟩

/-- Both comparisons of a game with its beginning, which is numbered with a superscript digit and
broken over lines. -/
theorem isSubsetFast_agrees_e4 :
    (isSubsetFast "².\n e4".toList "1. e4 e5 1-0".toList = some true ∧
      isSubsetByReading "².\n e4".toList "1. e4 e5 1-0".toList = .ok true) ∧
    isClean "².\n e4".toList = true ∧
    cleanSans? "².\n e4".toList = some ["e4".toList] ∧
    ∃ main, Mainline.ofMovetext "².\n e4".toList = .ok main ∧
      main.sans = ["e4".toList] ∧ main.failed = false ∧
      hasNoMainline "².\n e4".toList main = false := by
  have h : isSubsetFast "².\n e4".toList "1. e4 e5 1-0".toList = some true := by
    decide +kernel
  have hclean : isClean "².\n e4".toList = true := by decide +kernel
  have hsans : cleanSans? "².\n e4".toList = some ["e4".toList] := by
    decide +kernel
  exact ⟨⟨h, isSubsetFast_agrees.1 _ _ _ h⟩, hclean, hsans,
    isSubsetFast_agrees.2 _ _ hclean hsans⟩

end Scoresheet
