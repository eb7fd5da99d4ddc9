import Scoresheet.Pgn.Game

/-!
# Listening to a game

`playGame` reads a game first and plays its events to a listener afterwards. Here a listener follows
the reading itself: every event is told where it is read, unless the listener has stopped before
(`hearGame`). Both come to the same (`playGame_eq_hearGame`), because an answer decides only what is
told: the lines that are given back are the same for all listeners, and one that stops has heard the
beginning of what one that never stops hears (`hearGame_undisturbed`).
-/

namespace Scoresheet.Pgn

open Text

variable {σ τ : Type}

/-! ## Telling events -/

/-- What has been told to a listener. -/
structure Hearing (σ : Type) where
  state : σ
  /-- The last answer. -/
  flow : Flow
  /-- The events, each with the answer to it. -/
  told : List (Event × Flow)

namespace Hearing

def start (s : σ) : Hearing σ := ⟨s, .goOn, []⟩

def events (h : Hearing σ) : List Event := h.told.map Prod.fst

/-- The place of the first event that was answered with a stop. -/
def stop? (h : Hearing σ) : Option Nat := h.told.findIdx? fun told => told.2 == .stop

/-- Tells an event to a listener that has not stopped. -/
def tell (l : Listener σ) (h : Hearing σ) (e : Event) : Hearing σ :=
  match h.flow with
  | .stop => h
  | .goOn => ⟨(l.hear h.state e).1, (l.hear h.state e).2, h.told ++ [(e, (l.hear h.state e).2)]⟩

def tellAll (l : Listener σ) (h : Hearing σ) (es : List Event) : Hearing σ := es.foldl (tell l) h

@[simp]
theorem tellAll_nil (l : Listener σ) (h : Hearing σ) : h.tellAll l [] = h := rfl

@[simp]
theorem tellAll_cons (l : Listener σ) (h : Hearing σ) (e : Event) (es : List Event) :
    h.tellAll l (e :: es) = (h.tell l e).tellAll l es := rfl

@[simp]
theorem tellAll_append (l : Listener σ) (h : Hearing σ) (es more : List Event) :
    h.tellAll l (es ++ more) = (h.tellAll l es).tellAll l more := List.foldl_append

theorem tell_of_stop {l : Listener σ} {h : Hearing σ} (hflow : h.flow = .stop) (e : Event) :
    h.tell l e = h := by
  rw [tell, hflow]

theorem tellAll_of_stop {l : Listener σ} {h : Hearing σ} (hflow : h.flow = .stop)
    (es : List Event) : h.tellAll l es = h := by
  induction es with
  | nil => rfl
  | cons e es ih => rw [tellAll_cons, tell_of_stop hflow, ih]

end Hearing

/-! ## The reading with a listener -/

/-- Scans a line and tells its events. -/
def hearLine (l : Listener σ) (s : Cursor) (word : Text) (h : Hearing σ) :
    Line → Hearing σ × LineStop
  | [] => match s.readWord word.reverse with
    | .ok (events, s) => (h.tellAll l events, .endOfLine s)
    | .error e => (h, .oversizedNag e)
  | c :: cs => match s.comment with
    | some body =>
      if c = '}' then
        hearLine l { s with comment := none } []
          (if s.depth = 0 then h.tell l (.comment body.reverse) else h) cs
      else hearLine l { s with comment := some (c :: body) } [] h cs
    | none =>
      if s.finished && s.depth == 0 && word.isEmpty && c == '[' then (h, .nextGame (c :: cs))
      else if isWordBreak c then
        match s.readWord word.reverse with
        | .error e => (h, .oversizedNag e)
        | .ok (events, s) =>
          if c = ';' then (h.tellAll l events, .endOfLine s)
          else hearLine l (s.readBreak c).2 [] (h.tellAll l (events ++ (s.readBreak c).1)) cs
      else hearLine l s (c :: word) h cs

/-- Scans the lines of a movetext and tells their events. -/
def hearLines (l : Listener σ) (s : Cursor) (h : Hearing σ) :
    List Line → Hearing σ × MovetextEnd × List Line
  | [] => match s.comment with
    | none => (h, .complete, [])
    | some body =>
      (if s.depth = 0 then h.tell l (.partialComment body.reverse) else h, .unterminatedComment, [])
  | line :: lines =>
    if s.comment.isNone && opensTag line then (h, .complete, line :: lines)
    else if s.comment.isNone && isEscapeLine line then hearLines l s h lines
    else match hearLine l s [] h line with
      | (h, .endOfLine s) => hearLines l s h lines
      | (h, .nextGame rest) => (h, .complete, rest :: lines)
      | (h, .oversizedNag e) => (h, .oversizedNag e, lines)

/-- Reads tag lines and tells the tags, given the first malformed tag line so far. -/
def hearTags (l : Listener σ) (h : Hearing σ) (fault : Option Text) :
    List Line → Hearing σ × Option Text × List Line
  | [] => (h, fault, [])
  | line :: lines =>
    if opensTag line then
      match Tag.readLine? (trim line) with
      | some tags =>
        hearTags l (h.tellAll l (tags.map fun tag => .tag tag.key tag.value)) fault lines
      | none => hearTags l h (fault.or (some (trim line))) lines
    else if isBetweenGames line then hearTags l h fault lines
    else (h, fault, line :: lines)

/-- What was told of a game, what was reported as wrong with it, and the lines after it. -/
structure Heard (σ : Type) where
  hearing : Hearing σ
  error : Option ReadError
  rest : List Line

/-- Ends a game. A malformed text is reported only to a listener that has not stopped. -/
def endHearing (l : Listener σ) (fault : Option Text) :
    Hearing σ × MovetextEnd × List Line → Heard σ
  | (h, .oversizedNag e, rest) => ⟨h, some (.oversizedNag e), rest⟩
  | (h, .unterminatedComment, rest) => match h.flow with
    | .stop => ⟨h, none, rest⟩
    | .goOn => ⟨h, some (.malformed .unterminatedComment), rest⟩
  | (h, .complete, rest) => match h.flow, fault with
    | .stop, _ => ⟨h, none, rest⟩
    | .goOn, some line => ⟨h, some (.malformed (.badTagLine line)), rest⟩
    | .goOn, none => ⟨h.tell l .endGame, none, rest⟩

/-- Reads the next game and tells its events; none if there is no game left. -/
def hearGame (l : Listener σ) (s : σ) (lines : List Line) : Option (Heard σ) :=
  match lines.dropWhile isBetweenGames with
  | [] => none
  | line :: lines =>
    let (h, fault, body) := hearTags l ((Hearing.start s).tell l .beginTags) none (line :: lines)
    some (endHearing l fault (hearLines l .start (h.tell l .beginMovetext) body))

/-! ## Both readings compared -/

theorem hearLine_eq (l : Listener σ) (line : Line) (s : Cursor) (word : Text) (h : Hearing σ) :
    hearLine l s word h line =
      (h.tellAll l (scanLine s word line).events, (scanLine s word line).stop) := by
  induction line generalizing s word h with
  | nil =>
    rw [hearLine, scanLine]
    cases s.readWord word.reverse <;> rfl
  | cons c cs ih =>
    rw [hearLine, scanLine]
    cases s.comment with
    | some body =>
      by_cases hc : c = '}'
      · simp only [hc, if_true, ih, LineScan.after, Hearing.tellAll_append]
        split <;> rfl
      · simp only [hc, if_false, ih]
    | none =>
      simp only []
      by_cases hnext : (s.finished && s.depth == 0 && word.isEmpty && c == '[') = true
      · rw [if_pos hnext, if_pos hnext]
        rfl
      · rw [if_neg hnext, if_neg hnext]
        by_cases hbreak : isWordBreak c = true
        · rw [if_pos hbreak, if_pos hbreak]
          rcases s.readWord word.reverse with e | ⟨events, s'⟩
          · rfl
          · by_cases hsemi : c = ';'
            · simp only [hsemi, if_true]
            · simp only [hsemi, if_false, ih, LineScan.after, Hearing.tellAll_append]
        · rw [if_neg hbreak, if_neg hbreak, ih]

theorem hearLines_eq (l : Listener σ) (lines : List Line) (s : Cursor) (h : Hearing σ) :
    hearLines l s h lines =
      (h.tellAll l (scanLines s lines).events, (scanLines s lines).ending,
        (scanLines s lines).rest) := by
  induction lines generalizing s h with
  | nil =>
    rw [hearLines, scanLines]
    cases s.comment with
    | none => rfl
    | some body =>
      simp only []
      split <;> rfl
  | cons line lines ih =>
    rw [hearLines, scanLines, hearLine_eq]
    by_cases hopen : (s.comment.isNone && opensTag line) = true
    · rw [if_pos hopen, if_pos hopen]
      rfl
    · rw [if_neg hopen, if_neg hopen]
      by_cases hescape : (s.comment.isNone && isEscapeLine line) = true
      · rw [if_pos hescape, if_pos hescape, ih]
      · rw [if_neg hescape, if_neg hescape]
        rcases scanLine s [] line with ⟨events, s' | rest | e⟩
        · simp only [ih, Movetext.after, Hearing.tellAll_append]
        · rfl
        · rfl

theorem hearTags_eq (l : Listener σ) (lines : List Line) (h : Hearing σ) (fault : Option Text) :
    hearTags l h fault lines =
      (h.tellAll l ((readTags lines).tags.map fun tag => .tag tag.key tag.value),
        fault.or (readTags lines).fault, (readTags lines).body) := by
  induction lines generalizing h fault with
  | nil => simp [hearTags, readTags]
  | cons line lines ih =>
    rw [hearTags, readTags]
    by_cases hopen : opensTag line = true
    · rw [if_pos hopen, if_pos hopen]
      cases Tag.readLine? (trim line) with
      | some tags => simp only [ih, List.map_append, Hearing.tellAll_append]
      -- A fault that was found before goes before the one of this line.
      | none => cases fault <;> simp [ih]
    · rw [if_neg hopen, if_neg hopen, isBetweenGames]
      by_cases hblank : (isBlankText line || isEscapeLine line) = true
      · rw [if_pos hblank, if_pos hblank, ih]
      · rw [if_neg hblank, if_neg hblank]
        simp

/-! ## What a listener takes of a list of events -/

namespace Listener

/-- The events that a listener takes, with its answers. -/
def exchange (l : Listener σ) (s : σ) : List Event → List (Event × Flow)
  | [] => []
  | e :: es => match l.hear s e with
    | (s, .goOn) => (e, .goOn) :: l.exchange s es
    | (_, .stop) => [(e, .stop)]

theorem tellAll_eq (l : Listener σ) (es : List Event) (h : Hearing σ) (hflow : h.flow = .goOn) :
    h.tellAll l es =
      ⟨(l.run h.state es).1, (l.run h.state es).2, h.told ++ l.exchange h.state es⟩ := by
  induction es generalizing h with
  | nil =>
    obtain ⟨s, flow, told⟩ := h
    obtain rfl : flow = .goOn := hflow
    simp [run, exchange]
  | cons e es ih =>
    rw [Hearing.tellAll_cons, run, exchange, Hearing.tell, hflow]
    rcases hhear : l.hear h.state e with ⟨s, _ | _⟩
    · rw [ih _ rfl]
      simp
    · rw [Hearing.tellAll_of_stop rfl]

theorem tellAll_start (l : Listener σ) (s : σ) (es : List Event) :
    (Hearing.start s).tellAll l es = ⟨(l.run s es).1, (l.run s es).2, l.exchange s es⟩ :=
  tellAll_eq l es (Hearing.start s) rfl

theorem exchange_of_findIdx? (l : Listener σ) {k : Nat} (es : List Event) (s : σ)
    (h : (l.exchange s es).findIdx? (fun told => told.2 == .stop) = some k) :
    (l.exchange s es).map Prod.fst = es.take (k + 1) ∧ (l.run s es).2 = .stop := by
  induction es generalizing s k with
  | nil => simp [exchange] at h
  | cons e es ih =>
    rw [exchange] at h ⊢
    rw [run]
    rcases hhear : l.hear s e with ⟨s', _ | _⟩
    · simp only [hhear, List.findIdx?_cons] at h
      obtain ⟨j, hj, rfl⟩ : ∃ j, (l.exchange s' es).findIdx? (fun told => told.2 == .stop) = some j
          ∧ j + 1 = k := by simpa using h
      obtain ⟨htake, hstop⟩ := ih s' hj
      exact ⟨by simp [htake], hstop⟩
    · simp only [hhear, List.findIdx?_cons] at h
      obtain rfl : k = 0 := by simpa using h.symm
      simp

theorem exchange_of_findIdx?_eq_none (l : Listener σ) (es : List Event) (s : σ)
    (h : (l.exchange s es).findIdx? (fun told => told.2 == .stop) = none) :
    (l.exchange s es).map Prod.fst = es ∧ (l.run s es).2 = .goOn := by
  induction es generalizing s with
  | nil => simp [exchange, run]
  | cons e es ih =>
    rw [exchange] at h ⊢
    rw [run]
    rcases hhear : l.hear s e with ⟨s', _ | _⟩
    · obtain ⟨hall, hgo⟩ := ih s' (by simpa [hhear, List.findIdx?_cons] using h)
      exact ⟨by simp [hall], hgo⟩
    · simp [hhear, List.findIdx?_cons] at h

/-- A listener that never answers with a stop. -/
def NeverStops (l : Listener σ) : Prop := ∀ s e, (l.hear s e).2 = .goOn

theorem NeverStops.findIdx?_exchange {l : Listener σ} (hl : l.NeverStops) (es : List Event)
    (s : σ) : (l.exchange s es).findIdx? (fun told => told.2 == .stop) = none := by
  induction es generalizing s with
  | nil => rfl
  | cons e es ih =>
    have hflow := hl s e
    rw [exchange]
    rcases hhear : l.hear s e with ⟨s', _ | _⟩
    · simp [List.findIdx?_cons, ih s']
    · simp [hhear] at hflow

end Listener

/-! ## Games -/

/-- What a listener is told to be wrong with a game, given whether it stopped. -/
theorem Transcript.playTo_snd (t : Transcript) (l : Listener σ) (s : σ) :
    (t.playTo l s).2 = match (l.run s t.events).2, t.error with
      | .stop, some (.malformed _) => none
      | _, error => error := by
  unfold playTo
  rcases l.run s t.events with ⟨s', _ | _⟩ <;> rcases t.error with _ | _ | _ <;> rfl

theorem Transcript.playTo_fst (t : Transcript) (l : Listener σ) (s : σ) :
    (t.playTo l s).1 = (l.run s t.events).1 := by
  unfold playTo
  rcases l.run s t.events with ⟨s', _ | _⟩ <;> rcases t.error with _ | _ | _ <;> rfl

theorem endHearing_eq (l : Listener σ) (s : σ) (es : List Event) (fault : Option Text)
    (ending : MovetextEnd) (rest : List Line) (t : Transcript)
    (ht : t = ⟨es ++ if (gameError fault ending).isNone then [.endGame] else [],
      gameError fault ending⟩) :
    endHearing l fault ((Hearing.start s).tellAll l es, ending, rest) =
      ⟨(Hearing.start s).tellAll l t.events, (t.playTo l s).2, rest⟩ := by
  subst ht
  have hflow : ((Hearing.start s).tellAll l es).flow = (l.run s es).2 := by
    rw [Listener.tellAll_start]
  rw [Transcript.playTo_snd]
  cases ending with
  | complete =>
    cases hrun : (l.run s es).2 with
    | goOn => cases fault <;> simp [endHearing, gameError, hflow, hrun]
    | stop =>
      rw [hrun] at hflow
      cases fault <;> simp [endHearing, gameError, hflow, hrun, Hearing.tell_of_stop hflow]
  | unterminatedComment =>
    cases hrun : (l.run s es).2 <;> simp [endHearing, gameError, hflow, hrun]
  | oversizedNag e => simp [endHearing, gameError]

/-- The reading with a listener gives what the reading without one gives, told to the listener. -/
theorem hearGame_eq (l : Listener σ) (s : σ) (lines : List Line) :
    hearGame l s lines = (readGame lines).map fun (t, rest) =>
      ⟨(Hearing.start s).tellAll l t.events, (t.playTo l s).2, rest⟩ := by
  unfold hearGame readGame
  cases lines.dropWhile isBetweenGames with
  | nil => rfl
  | cons line lines =>
    simp only [hearTags_eq, hearLines_eq, Option.or, Option.map_some, Option.some.injEq]
    simp only [← Hearing.tellAll_cons, ← Hearing.tellAll_append]
    refine endHearing_eq l s _ _ _ _ _ ?_
    simp [gameFrom]

theorem playGame_eq_hearGame (l : Listener σ) (s : σ) (lines : List Line) :
    playGame l s lines =
      (hearGame l s lines).map fun h => ((h.hearing.state, h.error), h.rest) := by
  rw [hearGame_eq, Option.map_map]
  refine congrArg (fun f => (readGame lines).map f) (funext fun r => ?_)
  simp only [Function.comp, Listener.tellAll_start, ← Transcript.playTo_fst]

theorem map_rest_hearGame (l : Listener σ) (s : σ) (lines : List Line) :
    (hearGame l s lines).map Heard.rest = (readGame lines).map Prod.snd := by
  rw [hearGame_eq, Option.map_map]
  rfl

/-- A listener hears what one that never stops hears, up to its first stop. -/
theorem Listener.exchange_of_stop? {l : Listener σ} {l' : Listener τ} (hl' : l'.NeverStops)
    {s : σ} {s' : τ} {t : Transcript} (hover : ∀ n, (t.playTo l' s').2 ≠ some (.oversizedNag n)) :
    (∀ k, (l.exchange s t.events).findIdx? (fun told => told.2 == .stop) = some k →
      (l.exchange s t.events).map Prod.fst =
        ((l'.exchange s' t.events).map Prod.fst).take (k + 1) ∧ (t.playTo l s).2 = none) ∧
    ((l.exchange s t.events).findIdx? (fun told => told.2 == .stop) = none →
      (l.exchange s t.events).map Prod.fst = (l'.exchange s' t.events).map Prod.fst ∧
        (t.playTo l s).2 = (t.playTo l' s').2) := by
  obtain ⟨hall, hgo'⟩ := l'.exchange_of_findIdx?_eq_none t.events s'
    (hl'.findIdx?_exchange t.events s')
  have herror : (t.playTo l' s').2 = t.error := by rw [t.playTo_snd, hgo']
  rw [hall, herror]
  constructor
  · intro k hk
    obtain ⟨htake, hstop⟩ := l.exchange_of_findIdx? t.events s hk
    refine ⟨htake, ?_⟩
    rw [t.playTo_snd, hstop]
    rw [herror] at hover
    rcases he : t.error with _ | fault | n
    · rfl
    · rfl
    · exact absurd he (hover n)
  · intro hnone
    obtain ⟨hevents, hgo⟩ := l.exchange_of_findIdx?_eq_none t.events s hnone
    exact ⟨hevents, by rw [t.playTo_snd, hgo]⟩

/-! ## One game after another -/

/-- A listener in a state. -/
structure Hearer where
  State : Type
  listener : Listener State
  state : State

/-- The lines after some games, each read with a listener of its own. -/
def linesAfter : List Hearer → List Line → List Line
  | [], lines => lines
  | g :: gs, lines => match hearGame g.listener g.state lines with
    | none => []
    | some h => linesAfter gs h.rest

theorem linesAfter_congr {gs gs' : List Hearer} (hlen : gs.length = gs'.length)
    (lines : List Line) : linesAfter gs lines = linesAfter gs' lines := by
  induction gs generalizing gs' lines with
  | nil =>
    obtain rfl : gs' = [] := List.eq_nil_of_length_eq_zero hlen.symm
    rfl
  | cons g gs ih =>
    cases gs' with
    | nil => simp at hlen
    | cons g' gs' =>
      rw [linesAfter, linesAfter, hearGame_eq, hearGame_eq]
      cases readGame lines with
      | none => rfl
      | some r => exact ih (by simpa using hlen) r.2

/-- **A listener has no influence on what is read.** The lines after a game are the same for any two
listeners. A listener that stops at an event has heard the events up to that one and hears of no
malformed text; one that does not stop hears all. So neither do the listeners of earlier games
matter. -/
theorem hearGame_undisturbed (lines : List Line) {gs gs' : List Hearer}
    (hlen : gs.length = gs'.length) :
    linesAfter gs lines = linesAfter gs' lines ∧
    ∀ (l : Listener σ) (s : σ) (l' : Listener τ) (s' : τ),
      playGame l s (linesAfter gs lines) =
        (hearGame l s (linesAfter gs lines)).map (fun h => ((h.hearing.state, h.error), h.rest)) ∧
      hearGame l s (linesAfter gs lines) = hearGame l s (linesAfter gs' lines) ∧
      (hearGame l s (linesAfter gs lines)).map Heard.rest =
        (hearGame l' s' (linesAfter gs lines)).map Heard.rest ∧
      ∀ h h', hearGame l s (linesAfter gs lines) = some h →
        hearGame l' s' (linesAfter gs lines) = some h' →
        l'.NeverStops → (∀ n, h'.error ≠ some (.oversizedNag n)) →
        (∀ k, h.hearing.stop? = some k →
          h.hearing.events = h'.hearing.events.take (k + 1) ∧ h.error = none) ∧
        (h.hearing.stop? = none →
          h.hearing.events = h'.hearing.events ∧ h.error = h'.error) := by
  refine ⟨linesAfter_congr hlen lines, fun l s l' s' => ⟨playGame_eq_hearGame l s _, ?_, ?_, ?_⟩⟩
  · rw [linesAfter_congr hlen lines]
  · rw [map_rest_hearGame, map_rest_hearGame]
  · intro h h' hh hh' hl' hover
    rw [hearGame_eq] at hh hh'
    obtain ⟨r, hr, rfl⟩ := Option.map_eq_some_iff.1 hh
    obtain ⟨r', hr', rfl⟩ := Option.map_eq_some_iff.1 hh'
    obtain rfl : r = r' := Option.some.inj (hr.symm.trans hr')
    simp only [Hearing.stop?, Hearing.events, Listener.tellAll_start]
    exact Listener.exchange_of_stop? hl' hover

/-- A listener that stops at the first move. -/
def hasty : Listener Unit := ⟨fun _ e => match e with
  | .san _ => ((), .stop)
  | _ => ((), .goOn)⟩

def patient : Listener Unit := ⟨fun _ _ => ((), .goOn)⟩

/-- A game with a malformed tag line, and one that is cut off inside a comment. -/
def faulty : List Line := lines "[White A]\n\n1. e4 e5 *\n\n[White \"B\"]\n\n1. d4 \x7bcut".toList

theorem hearGame_undisturbed_faulty :
    [(⟨Unit, hasty, ()⟩ : Hearer)].length = [(⟨Unit, patient, ()⟩ : Hearer)].length ∧
    patient.NeverStops ∧
    ∃ h h', hearGame hasty () (linesAfter [⟨Unit, hasty, ()⟩] faulty) = some h ∧
      hearGame patient () (linesAfter [⟨Unit, hasty, ()⟩] faulty) = some h' ∧
      h.hearing.stop? = some 3 ∧ h'.error = some (.malformed .unterminatedComment) ∧
      h.hearing.events = h'.hearing.events.take 4 ∧ h.error = none := by
  have hpatient : patient.NeverStops := fun _ _ => rfl
  have hhasty : (hearGame hasty () (linesAfter [⟨Unit, hasty, ()⟩] faulty)).map
      (fun h => h.hearing.stop?) = some (some 3) := by decide +kernel
  have herror : (hearGame patient () (linesAfter [⟨Unit, hasty, ()⟩] faulty)).map Heard.error
      = some (some (.malformed .unterminatedComment)) := by decide +kernel
  obtain ⟨h, hh, hstop⟩ := Option.map_eq_some_iff.1 hhasty
  obtain ⟨h', hh', he⟩ := Option.map_eq_some_iff.1 herror
  have hlen : [(⟨Unit, hasty, ()⟩ : Hearer)].length = [(⟨Unit, patient, ()⟩ : Hearer)].length := rfl
  obtain ⟨_, _, _, hheard⟩ := (hearGame_undisturbed faulty hlen).2 hasty () patient ()
  have hheard := hheard h h' hh hh' hpatient (by simp [he])
  exact ⟨rfl, hpatient, h, h', hh, hh', hstop, he, hheard.1 3 hstop⟩

end Scoresheet.Pgn
