import Scoresheet.Proofs.Chess.Notation
import Scoresheet.Proofs.Pgn.Nesting

/-!
# What a movetext reports

The moves of a game and what belongs to them come first, then at most one result, and after that
nothing but comments. `Utters` says which events may follow each other in this way, given whether
the result has been reported. Each function of the scan goes on where the text before it stopped, so
all events of a movetext are in order (`utters_scanLines`), whatever it holds.
-/

namespace Scoresheet.Pgn

open Text Scoresheet.Chess

/-! ## Events and what they may hold -/

/-- An event that may come before the result. -/
def Event.isBeforeResult : Event → Bool
  | .san _ | .comment _ | .nag _ | .beginVariation => true
  | .beginTags | .tag _ _ | .beginMovetext | .partialComment _ | .outcome _ | .endGame => false

def Event.isComment : Event → Bool
  | .comment _ => true
  | _ => false

/-- The spellings in which results are reported. -/
def resultSpellings : List Text :=
  ["1-0".toList, "0-1".toList, "1/2-1/2".toList, "*".toList]

/-- Moves and results are spelled canonically, and no comment holds a closing brace. -/
def Event.IsWellSpelled : Event → Prop
  | .san token => San.canonical? token = some token
  | .outcome marker => marker ∈ resultSpellings
  | .comment text | .partialComment text => '}' ∉ text
  | .beginTags | .tag _ _ | .beginMovetext | .nag _ | .beginVariation | .endGame => True

theorem mem_resultSpellings {w marker : Text} (h : outcomeMarker? w = some marker) :
    marker ∈ resultSpellings := by
  unfold outcomeMarker? at h
  split at h <;> cases h <;> decide

/-- Events that may follow each other, given whether the result has been reported before them, and
whether it has been reported after them. -/
inductive Utters : Bool → List Event → Bool → Prop
  | nil (finished : Bool) : Utters finished [] finished
  | move {e : Event} {es : List Event} {finished : Bool} : e.isBeforeResult = true →
      e.IsWellSpelled → Utters false es finished → Utters false (e :: es) finished
  | outcome {marker : Text} {es : List Event} {finished : Bool} : marker ∈ resultSpellings →
      Utters true es finished → Utters false (.outcome marker :: es) finished
  | comment {text : Text} {es : List Event} {finished : Bool} : '}' ∉ text →
      Utters true es finished → Utters true (.comment text :: es) finished

namespace Utters

theorem append {a b c : Bool} {es es' : List Event} (h : Utters a es b) (h' : Utters b es' c) :
    Utters a (es ++ es') c := by
  induction h with
  | nil => exact h'
  | move hmove hspelled _ ih => exact .move hmove hspelled (ih h')
  | outcome hmarker _ ih => exact .outcome hmarker (ih h')
  | comment htext _ ih => exact .comment htext (ih h')

theorem of_moves {es : List Event}
    (h : ∀ e ∈ es, e.isBeforeResult = true ∧ e.IsWellSpelled) : Utters false es false := by
  induction es with
  | nil => exact .nil false
  | cons e es ih =>
    obtain ⟨hmove, hspelled⟩ := h e List.mem_cons_self
    exact .move hmove hspelled (ih fun e' he' => h e' (List.mem_cons_of_mem _ he'))

/-- A comment may come at any place. -/
theorem of_comment (finished : Bool) {text : Text} (h : '}' ∉ text) :
    Utters finished [.comment text] finished := by
  cases finished with
  | false => exact .move rfl h (.nil false)
  | true => exact .comment h (.nil true)

theorem isWellSpelled {a b : Bool} {es : List Event} (h : Utters a es b) :
    ∀ e ∈ es, e.IsWellSpelled := by
  induction h with
  | nil => simp
  | move _ hspelled _ ih => exact List.forall_mem_cons.2 ⟨hspelled, ih⟩
  | outcome hmarker _ ih => exact List.forall_mem_cons.2 ⟨hmarker, ih⟩
  | comment htext _ ih => exact List.forall_mem_cons.2 ⟨htext, ih⟩

/-- After the result there are only comments. -/
theorem isComment {es : List Event} {b : Bool} (h : Utters true es b) :
    ∀ e ∈ es, e.isComment = true := by
  generalize ha : true = a at h
  induction h with
  | nil => simp
  | move => simp at ha
  | outcome => simp at ha
  | comment _ _ ih => exact List.forall_mem_cons.2 ⟨rfl, ih rfl⟩

end Utters

/-- No event, or one result with comments behind it. -/
def IsResult (es : List Event) : Prop :=
  es = [] ∨ ∃ marker comments, es = .outcome marker :: comments ∧
    ∀ e ∈ comments, e.isComment = true

/-- Moves come first, then the result. -/
theorem Utters.exists_result {es : List Event} {b : Bool} (h : Utters false es b) :
    ∃ moves result, es = moves ++ result ∧ (∀ e ∈ moves, e.isBeforeResult = true) ∧
      IsResult result := by
  generalize ha : false = a at h
  induction h with
  | nil => exact ⟨[], [], rfl, by simp, Or.inl rfl⟩
  | @move e es _ hmove _ _ ih =>
    obtain ⟨moves, result, rfl, hmoves, hresult⟩ := ih rfl
    exact ⟨e :: moves, result, rfl, List.forall_mem_cons.2 ⟨hmove, hmoves⟩, hresult⟩
  | @outcome marker es _ _ hes _ =>
    exact ⟨[], .outcome marker :: es, rfl, by simp, Or.inr ⟨marker, es, rfl, hes.isComment⟩⟩
  | comment => simp at ha

/-! ## Words -/

theorem moves_of_moveEvents? {w : Text} {es : List Event} (h : moveEvents? w = some es) :
    ∀ e ∈ es, e.isBeforeResult = true ∧ e.IsWellSpelled := by
  simp only [moveEvents?, Option.map_eq_some_iff] at h
  obtain ⟨san, hsan, rfl⟩ := h
  refine List.forall_mem_cons.2 ⟨⟨rfl, San.canonical?_of_canonical? hsan⟩, ?_⟩
  intro e he
  obtain ⟨code, _, rfl⟩ := List.mem_map.1 he
  exact ⟨rfl, trivial⟩

theorem moves_of_wordEvents {w : Text} {es : List Event} (h : wordEvents w = .ok es) :
    ∀ e ∈ es, e.isBeforeResult = true ∧ e.IsWellSpelled := by
  fun_induction wordEvents w with
  | case1 | case3 | case7 =>
    obtain rfl : es = [] := by simpa using h.symm
    simp
  | case2 cs _ =>
    cases hn : readNumeral cs with
    | error n => simp [hn, Except.map] at h
    | ok n =>
      obtain rfl : es = [.nag n] := by simpa [hn, Except.map] using h.symm
      exact List.forall_mem_singleton.2 ⟨rfl, trivial⟩
  | case4 _ _ _ code _ =>
    obtain rfl : es = [.nag code] := by simpa using h.symm
    exact List.forall_mem_singleton.2 ⟨rfl, trivial⟩
  | case5 _ _ _ _ es' hm =>
    obtain rfl : es = es' := by simpa using h.symm
    exact moves_of_moveEvents? hm
  | case6 _ _ _ _ _ _ ih => exact ih h

namespace Cursor

theorem finished_of_readsWords {s : Cursor} (h : s.readsWords = true) : s.finished = false := by
  simp only [readsWords, Bool.and_eq_true, Bool.not_eq_true'] at h
  exact h.2

/-- Only the main line before the result is read, so a word adds moves or the result to it. -/
theorem utters_readWord {s s' : Cursor} {word : Text} {es : List Event}
    (h : s.readWord word = .ok (es, s')) : Utters s.finished es s'.finished := by
  rcases readWord_cases h with ⟨hreads, marker, hmarker, rfl, rfl⟩ | ⟨hreads, hword, rfl⟩ |
    ⟨_, rfl, rfl⟩
  · rw [finished_of_readsWords hreads]
    exact .outcome (mem_resultSpellings hmarker) (.nil true)
  · rw [finished_of_readsWords hreads]
    exact .of_moves (moves_of_wordEvents hword)
  · exact .nil _

theorem utters_readBreak (s : Cursor) (c : Char) :
    Utters s.finished (s.readBreak c).1 (s.readBreak c).2.finished := by
  unfold readBreak
  split
  · exact .nil _
  · split
    · split
      · rename_i hreads
        show Utters s.finished _ s.finished
        rw [finished_of_readsWords hreads]
        exact .move rfl trivial (.nil false)
      · exact .nil _
    · split <;> exact .nil _

/-- An open comment holds no closing brace. -/
def IsSound (s : Cursor) : Prop := ∀ body, s.comment = some body → '}' ∉ body

theorem isSound_of_eq_none {s : Cursor} (h : s.comment = none) : s.IsSound := by
  intro body hbody
  simp [h] at hbody

theorem isSound_readBreak {s : Cursor} (hs : s.comment = none) (c : Char) :
    (s.readBreak c).2.IsSound := by
  intro body hbody
  unfold readBreak at hbody
  split at hbody
  · obtain rfl : body = [] := by simpa using hbody.symm
    simp
  · split at hbody
    · simp [hs] at hbody
    · split at hbody <;> simp [hs] at hbody

end Cursor

/-! ## Scans -/

/-- **A line goes on with the events where the text before it stopped.** -/
theorem utters_scanLine (line : Line) {s : Cursor} (hs : s.IsSound) (word : Text) :
    ∃ finished, Utters s.finished (scanLine s word line).events finished ∧
      ∀ s', (scanLine s word line).stop = .endOfLine s' →
        s'.finished = finished ∧ s'.IsSound := by
  induction line generalizing s word with
  | nil =>
    rw [scanLine]
    cases hw : s.readWord word.reverse with
    | error e => exact ⟨s.finished, .nil _, by simp⟩
    | ok r =>
      obtain ⟨es, u⟩ := r
      refine ⟨u.finished, Cursor.utters_readWord hw, ?_⟩
      rintro s' ⟨⟩
      refine ⟨rfl, fun body hbody => hs body ?_⟩
      rw [← Cursor.comment_of_readWord hw, hbody]
  | cons c cs ih =>
    rw [scanLine]
    cases hbody : s.comment with
    | some body =>
      by_cases hc : c = '}'
      · simp only [if_pos hc]
        obtain ⟨finished, hutters, hstop⟩ :=
          ih (s := { s with comment := none }) (Cursor.isSound_of_eq_none rfl) []
        refine ⟨finished, Utters.append ?_ hutters, hstop⟩
        split
        · exact .of_comment _ (by simpa using hs body hbody)
        · exact .nil _
      · simp only [if_neg hc]
        refine ih (s := { s with comment := some (c :: body) }) ?_ []
        intro body' hbody'
        obtain rfl : c :: body = body' := by simpa using hbody'
        exact List.not_mem_cons_of_ne_of_not_mem (Ne.symm hc) (hs body hbody)
    | none =>
      simp only []
      split
      · exact ⟨s.finished, .nil _, by simp⟩
      · split
        · cases hw : s.readWord word.reverse with
          | error e => exact ⟨s.finished, .nil _, by simp⟩
          | ok r =>
            obtain ⟨es, u⟩ := r
            have hu : u.comment = none := by rw [Cursor.comment_of_readWord hw, hbody]
            simp only []
            split
            · refine ⟨u.finished, Cursor.utters_readWord hw, ?_⟩
              rintro s' ⟨⟩
              exact ⟨rfl, Cursor.isSound_of_eq_none hu⟩
            · obtain ⟨finished, hutters, hstop⟩ := ih (Cursor.isSound_readBreak hu c) []
              refine ⟨finished, Utters.append ?_ hutters, hstop⟩
              exact (Cursor.utters_readWord hw).append (u.utters_readBreak c)
        · exact ih hs _

/-- What a comment that is cut off adds to the events: its text, unless it lies in a variation. -/
def IsCutOff (o : Openings) (es : List Event) : Prop :=
  if o.parens = 0 then ∃ text, '}' ∉ text ∧ es = [.partialComment text] else es = []

theorem isCutOff_partialComment (o : Openings) {text : Text} (h : '}' ∉ text) :
    IsCutOff o (if o.parens = 0 then [.partialComment text] else []) := by
  unfold IsCutOff
  by_cases hparens : o.parens = 0
  · rw [if_pos hparens, if_pos hparens]
    exact ⟨text, h, rfl⟩
  · rw [if_neg hparens, if_neg hparens]

/-- **The events of a movetext are in order**, up to what a comment that is cut off adds. -/
theorem utters_scanLines (lines : List Line) {s : Cursor} (hs : s.IsSound) :
    ∃ es finished ending, (scanLines s lines).events = es ++ ending ∧
      Utters s.finished es finished ∧
      ((scanLines s lines).ending = .unterminatedComment →
        IsCutOff (s.openings.overLines lines) ending) ∧
      ((scanLines s lines).ending ≠ .unterminatedComment → ending = []) := by
  induction lines generalizing s with
  | nil =>
    rw [scanLines]
    cases hbody : s.comment with
    | none => exact ⟨[], s.finished, [], rfl, .nil _, by simp, by simp⟩
    | some body =>
      exact ⟨[], s.finished, _, rfl, .nil _,
        fun _ => isCutOff_partialComment s.openings (by simpa using hs body hbody), by simp⟩
  | cons line lines ih =>
    rw [scanLines, Openings.overLines, s.isNone_comment]
    by_cases hopen : (!s.openings.comment && opensTag line) = true
    · rw [if_pos hopen]
      exact ⟨[], s.finished, [], rfl, .nil _, by simp, by simp⟩
    · rw [if_neg hopen]
      by_cases hescape : (!s.openings.comment && isEscapeLine line) = true
      · rw [if_pos hescape, if_pos hescape]
        exact ih hs
      · rw [if_neg hescape, if_neg hescape]
        obtain ⟨finished, hutters, hstop⟩ := utters_scanLine line hs []
        rcases hscan : scanLine s [] line with ⟨events, s' | rest | e⟩
        · rw [hscan] at hutters hstop
          obtain ⟨rfl, hs'⟩ := hstop s' rfl
          obtain ⟨es, finished, ending, hevents, hmore, hcut, hwhole⟩ := ih hs'
          rw [openings_of_scanLine (show (scanLine s [] line).stop = _ by rw [hscan])] at hcut
          refine ⟨events ++ es, finished, ending, ?_, hutters.append hmore, hcut, hwhole⟩
          show events ++ _ = _
          rw [hevents, List.append_assoc]
        · rw [hscan] at hutters
          exact ⟨events, finished, [], (List.append_nil _).symm, hutters, by simp, by simp⟩
        · rw [hscan] at hutters
          exact ⟨events, finished, [], (List.append_nil _).symm, hutters, by simp, by simp⟩

end Scoresheet.Pgn
