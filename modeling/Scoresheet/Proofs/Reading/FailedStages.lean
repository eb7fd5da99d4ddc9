import Scoresheet.Proofs.Pgn.Protocol
import Scoresheet.Proofs.Reading.MalformedTags
import Scoresheet.Proofs.Reading.SourceGames

/-!
# What a record says of the stages that failed

The error of a record starts with the diagnostic of its game, if there is one, and goes on with the
complaints about its headers (`Record.parseError_of_ofTranscript`). A game has one diagnostic at
most: a comment that is open where the input ends goes before a malformed tag line. So a record names each
stage of its game that failed, unless the tag section and the movetext both did
(`Source.failed_stages_named_unless_both`); of such a game it names the movetext only, which
`Source.failed_headers_unnamed` shows.
-/

namespace Scoresheet

open Text Pgn

/-! ## The games of a list of lines -/

namespace Pgn

/-- The lines behind the first games. -/
def linesBehind : Nat → List Line → List Line
  | 0, lines => lines
  | k + 1, lines => match readGame lines with
    | some (_, rest) => linesBehind k rest
    | none => []

/-- A tag line of the game at the front of the lines is malformed. -/
def HasMalformedTag (lines : List Line) : Prop :=
  ∃ line ∈ lines.takeWhile precedesMovetext, isMalformedTagLine line = true

theorem badTagLine?_isSome_iff {lines : List Line} :
    (badTagLine? lines).isSome = true ↔ HasMalformedTag lines := by
  rw [badTagLine?, List.find?_isSome]
  rfl

theorem linesBehind_succ {lines rest : List Line} {t : Transcript}
    (h : readGame lines = some (t, rest)) (k : Nat) :
    linesBehind (k + 1) lines = linesBehind k rest := by
  rw [linesBehind, h]

theorem linesBehind_succ_of_none {lines : List Line} (h : readGame lines = none) (k : Nat) :
    linesBehind (k + 1) lines = [] := by
  rw [linesBehind, h]

/-- There is no game where no lines are left. -/
theorem readGame_linesBehind_nil (k : Nat) : readGame (linesBehind k []) = none := by
  cases k <;> rfl

variable {lines rest : List Line} {t : Transcript}

theorem error_of_readGame (h : readGame lines = some (t, rest)) (hover : t.isOversized = false) :
    t.error = if rest = [] ∧ (openAtEnd lines).comment = true
      then some (.malformed .unterminatedComment)
      else (badTagLine? lines).map fun line => .malformed (.badTagLine (trim line)) := by
  have hgame := (gameFrom_of_readGame h).1
  have herror : (gameFrom lines).1.error = _ := error_gameFrom (by rw [hgame]; exact hover)
  rwa [hgame] at herror

/-- A comment that is open at the end of the input is what a game is reported for. -/
theorem diagnostic?_of_endsInComment (h : readGame lines = some (t, rest))
    (hover : t.isOversized = false) (hends : EndsInComment lines rest) (path : Text)
    (gameIndex : Nat) :
    diagnostic? t path gameIndex = some (stageDiagnostic .unterminatedComment path gameIndex) := by
  rw [diagnostic?, error_of_readGame h hover, if_pos (by exact hends)]

/-- Otherwise a game is reported for its first malformed tag line. -/
theorem diagnostic?_of_not_endsInComment (h : readGame lines = some (t, rest))
    (hover : t.isOversized = false) (hends : ¬EndsInComment lines rest) (path : Text)
    (gameIndex : Nat) :
    diagnostic? t path gameIndex = (badTagLine? lines).map fun line =>
      stageDiagnostic (.badTagLine (trim line)) path gameIndex := by
  rw [diagnostic?, error_of_readGame h hover, if_neg (by exact hends)]
  cases badTagLine? lines <;> rfl

end Pgn

/-! ## What a record is reported for -/

/-- The notes of a record as one text. -/
def joinNotes (notes : List Text) : Option Text :=
  if notes.isEmpty then none else some (join [';', ' '] notes)

/-- The story of a game is all heard, and the headers are those of the game. -/
theorem Assembly.exists_hearAll_story {t : Transcript} (ht : t.IsFramed) :
    ∃ a, Assembly.start.hearAll t.story = .ok a ∧ a.headers = t.headers := by
  obtain ⟨inner, hinner, hstory, hevents⟩ := ht.exists_story
  obtain ⟨a, ha, hheaders⟩ := Assembly.exists_hearAll hinner
    { Assembly.start with phase := .collectingHeaders }
  refine ⟨a, ?_, ?_⟩
  · rw [hstory]
    exact ha
  · rw [hheaders, Transcript.headers, hevents, hstory, Headers.hear_append]
    cases t.error <;> rfl

theorem Headers.notes_diagnostic? (h : Headers) (t : Transcript) (path : Text) (gameIndex : Nat) :
    h.notes ((diagnostic? t path gameIndex).getD [])
      = (diagnostic? t path gameIndex).toList ++ h.complaints := by
  rw [notes]
  congr 1
  unfold diagnostic?
  split
  · have hne := stageDiagnostic_ne_nil ‹SyntaxFault› path gameIndex
    simp [hne]
  · rfl

/-- **The error of a record** is the diagnostic of its game and the complaints about its headers. -/
theorem Record.parseError_of_ofTranscript {path : Text} {gameIndex : Nat} {t : Transcript}
    {r : Record} (ht : t.IsFramed) (h : Record.ofTranscript path gameIndex t = .ok r) :
    r.parseError = joinNotes ((diagnostic? t path gameIndex).toList ++ t.headers.complaints) := by
  obtain ⟨a, ha, hheaders⟩ := Assembly.exists_hearAll_story ht
  have hover : t.oversized? = none := by
    simpa [t.isOversized_eq] using Record.not_isOversized_of_ofTranscript h
  rw [Record.ofTranscript_of_isFramed ht, ha, hover] at h
  have hparseError := Record.parseError_of_build h
  rwa [Headers.notes_diagnostic?, hheaders] at hparseError

namespace SourceReading

variable {path : Text} {fault : Option SourceError} {gameIndex : Nat} {lines rest : List Line}

/-- The first game of a reading was made from the first transcript, and the games after it from the
lines that were left. -/
theorem exists_of_games_eq_cons {game : GameReading} {games : List GameReading}
    (h : (ofLines path fault gameIndex lines).games = game :: games) :
    ∃ t rest, readGame lines = some (t, rest) ∧
      Record.ofTranscript path gameIndex t = .ok game.record ∧
      game.diagnostic = diagnostic? t path gameIndex ∧
      games = (ofLines path fault (gameIndex + 1) rest).games := by
  rw [ofLines] at h
  split at h
  · simp [ended] at h
  · rename_i t rest ht
    split at h
    · simp [ended] at h
    · split at h
      · simp [ended] at h
      · rename_i record hrecord
        obtain ⟨rfl, rfl⟩ := List.cons.inj h
        exact ⟨t, rest, ht, hrecord, rfl, rfl⟩

/-- What is read of each game is what its transcript gives. -/
theorem ofTranscript_of_getElem? {t : Transcript} {game : GameReading} (k : Nat) :
    ∀ {gameIndex : Nat} {lines : List Line}, readGame (linesBehind k lines) = some (t, rest) →
      (ofLines path fault gameIndex lines).games[k]? = some game →
      Record.ofTranscript path (gameIndex + k) t = .ok game.record ∧
        game.diagnostic = diagnostic? t path (gameIndex + k) := by
  induction k with
  | zero =>
    intro gameIndex lines ht hgame
    cases hgames : (ofLines path fault gameIndex lines).games with
    | nil => simp [hgames] at hgame
    | cons first later =>
      obtain rfl : first = game := by simpa [hgames] using hgame
      obtain ⟨u, more, hu, hrecord, hdiagnostic, _⟩ := exists_of_games_eq_cons hgames
      obtain ⟨rfl, _⟩ := Prod.mk.inj (Option.some.inj (hu.symm.trans ht))
      exact ⟨hrecord, hdiagnostic⟩
  | succ k ih =>
    intro gameIndex lines ht hgame
    cases hgames : (ofLines path fault gameIndex lines).games with
    | nil => simp [hgames] at hgame
    | cons first later =>
      obtain ⟨u, more, hu, _, _, rfl⟩ := exists_of_games_eq_cons hgames
      rw [linesBehind_succ hu] at ht
      rw [hgames, List.getElem?_cons_succ] at hgame
      rw [show gameIndex + (k + 1) = gameIndex + 1 + k by omega]
      exact ih ht hgame

/-- **Every game is read**, unless a numeral is too long to convert; of a text that breaks off in a
fault the last game is lost. -/
theorem exists_getElem? {t : Transcript} (k : Nat) :
    ∀ {gameIndex : Nat} {lines : List Line}, readGame (linesBehind k lines) = some (t, rest) →
      fault = none ∨ rest ≠ [] → (ofLines path fault gameIndex lines).IsConvertible →
      ∃ game, (ofLines path fault gameIndex lines).games[k]? = some game := by
  induction k with
  | zero =>
    intro gameIndex lines ht hwhole hconv
    rw [linesBehind] at ht
    rw [ofLines_of_some ht] at hconv ⊢
    have hgoesOn : ¬(rest.isEmpty && fault.isSome && !t.isOversized) = true := by
      rcases hwhole with rfl | hrest <;> simp_all
    rw [if_neg hgoesOn] at hconv ⊢
    split at hconv
    · exact absurd rfl (hconv _)
    · exact ⟨_, rfl⟩
  | succ k ih =>
    intro gameIndex lines ht hwhole hconv
    cases hr : readGame lines with
    | none =>
      rw [linesBehind_succ_of_none hr] at ht
      cases ht
    | some r =>
      obtain ⟨u, more⟩ := r
      rw [linesBehind_succ hr] at ht
      rw [ofLines_of_some hr] at hconv ⊢
      have hmore : more ≠ [] := by
        rintro rfl
        rw [readGame_linesBehind_nil] at ht
        cases ht
      rw [if_neg (by simp [hmore])] at hconv ⊢
      split at hconv
      · exact absurd rfl (hconv _)
      · exact ih ht hwhole hconv

end SourceReading

/-! ## Stages that failed -/

theorem stageDiagnostic_badTagLine_ne (line path path' : Text) (gameIndex gameIndex' : Nat) :
    stageDiagnostic (.badTagLine line) path gameIndex
      ≠ stageDiagnostic .unterminatedComment path' gameIndex' := by
  intro h
  unfold stageDiagnostic at h
  simp only [List.append_assoc] at h
  -- both start alike, and then the one names the headers and the other the movetext
  have hname := List.append_cancel_left h
  have hheaders : "headers".toList <+: "movetext".toList :=
    List.prefix_of_prefix_length_le (hname ▸ List.prefix_append _ _) (List.prefix_append _ _)
      (by decide)
  exact absurd hheaders (by decide)

theorem not_isConversionError_stageDiagnostic (fault : SyntaxFault) (path : Text)
    (gameIndex : Nat) : ¬"Conversion error: ".toList <+: stageDiagnostic fault path gameIndex := by
  intro h
  unfold stageDiagnostic at h
  simp only [List.append_assoc] at h
  have hstart : "Conversion error: ".toList <+: "Parser-stage error: stage=".toList :=
    List.prefix_of_prefix_length_le h (List.prefix_append _ _) (by decide)
  exact absurd hstart (by decide)

/-- The notes on the game at the front of the lines, with the lines `rest` behind it, name each of
its stages that failed. -/
structure NamesFailedStages (path : Text) (gameIndex : Nat) (lines rest : List Line)
    (notes : List Text) : Prop where
  headers : HasMalformedTag lines →
    ∃ line, stageDiagnostic (.badTagLine line) path gameIndex ∈ notes
  movetext : EndsInComment lines rest →
    stageDiagnostic .unterminatedComment path gameIndex ∈ notes

section Notes

variable {path : Text} {gameIndex : Nat} {lines rest : List Line} {t : Transcript}

/-- A note that is a diagnostic is that of the game. -/
theorem mem_diagnostic?_of_mem_notes {fault : SyntaxFault}
    (h : stageDiagnostic fault path gameIndex
      ∈ (diagnostic? t path gameIndex).toList ++ t.headers.complaints) :
    diagnostic? t path gameIndex = some (stageDiagnostic fault path gameIndex) := by
  rcases List.mem_append.1 h with h | h
  · exact Option.mem_toList.1 h
  · exact absurd (Headers.isConversionError_of_mem_complaints h)
      (not_isConversionError_stageDiagnostic fault path gameIndex)

/-- **The notes name each stage that failed** unless both did: then only the movetext is named. -/
theorem namesFailedStages_iff (h : readGame lines = some (t, rest))
    (hover : t.isOversized = false) :
    NamesFailedStages path gameIndex lines rest
        ((diagnostic? t path gameIndex).toList ++ t.headers.complaints) ↔
      ¬(HasMalformedTag lines ∧ EndsInComment lines rest) := by
  constructor
  · rintro hnamed ⟨hmalformed, hends⟩
    obtain ⟨line, hline⟩ := hnamed.headers hmalformed
    have hdiagnostic := mem_diagnostic?_of_mem_notes hline
    rw [diagnostic?_of_endsInComment h hover hends] at hdiagnostic
    exact stageDiagnostic_badTagLine_ne _ _ _ _ _ (Option.some.inj hdiagnostic).symm
  · intro hnot
    constructor
    · intro hmalformed
      have hends : ¬EndsInComment lines rest := fun hends => hnot ⟨hmalformed, hends⟩
      obtain ⟨line, hline⟩ := Option.isSome_iff_exists.1 (badTagLine?_isSome_iff.2 hmalformed)
      rw [diagnostic?_of_not_endsInComment h hover hends, hline]
      exact ⟨trim line, List.mem_cons_self⟩
    · intro hends
      rw [diagnostic?_of_endsInComment h hover hends]
      exact List.mem_cons_self

end Notes

/-! ## Sources -/

/-- What is said of the game at the front of the lines: the error of its record starts with the
diagnostic of the game and goes on with complaints about headers. -/
structure GameReading.IsDiagnosed (path : Text) (gameIndex : Nat) (lines rest : List Line)
    (complaints : List Text) (game : GameReading) : Prop where
  parseError : game.record.parseError = joinNotes (game.diagnostic.toList ++ complaints)
  isConversionError : ∀ note ∈ complaints, "Conversion error: ".toList <+: note
  movetext : EndsInComment lines rest →
    game.diagnostic = some (stageDiagnostic .unterminatedComment path gameIndex)
  headers : ¬EndsInComment lines rest → game.diagnostic =
    (badTagLine? lines).map fun line => stageDiagnostic (.badTagLine (trim line)) path gameIndex
  namesFailedStages :
    NamesFailedStages path gameIndex lines rest (game.diagnostic.toList ++ complaints) ↔
      ¬(HasMalformedTag lines ∧ EndsInComment lines rest)

/-- Each game that is read is diagnosed from its lines. -/
theorem SourceReading.isDiagnosed {path : Text} {fault : Option SourceError}
    {lines rest : List Line} {gameIndex k : Nat} {t : Transcript} {game : GameReading}
    (ht : readGame (linesBehind k lines) = some (t, rest))
    (hgame : (ofLines path fault gameIndex lines).games[k]? = some game) :
    game.IsDiagnosed path (gameIndex + k) (linesBehind k lines) rest t.headers.complaints := by
  obtain ⟨hrecord, hdiagnostic⟩ := ofTranscript_of_getElem? k ht hgame
  have hover := Record.not_isOversized_of_ofTranscript hrecord
  have hframed : t.IsFramed := by
    obtain ⟨hgame, _⟩ := gameFrom_of_readGame ht
    rw [show t = (gameFrom (linesBehind k lines)).1 by rw [hgame]]
    exact isFramed_gameFrom _
  constructor
  case parseError =>
    rw [hdiagnostic]
    exact Record.parseError_of_ofTranscript hframed hrecord
  case isConversionError => exact fun _ => Headers.isConversionError_of_mem_complaints
  case movetext =>
    intro hends
    rw [hdiagnostic]
    exact diagnostic?_of_endsInComment ht hover hends path _
  case headers =>
    intro hends
    rw [hdiagnostic]
    exact diagnostic?_of_not_endsInComment ht hover hends path _
  case namesFailedStages =>
    rw [hdiagnostic]
    exact namesFailedStages_iff ht hover

/-- **A record names the stages of its game that failed**, but not both. Of a source that can be
opened each game is read. If the input ends inside a comment of the game, its record says so first;
otherwise it names the first malformed tag line, if there is one. So all that failed is named unless
the tag section and the movetext both failed: then what is wrong with the tag section is lost. -/
theorem Source.failed_stages_named_unless_both {tree : FileTree} {compression : Compression}
    {path : Text} {content : Source.Content} {k : Nat} {t : Transcript} {rest : List Line}
    (hopen : Source.openAt tree compression path = .ok content)
    (ht : readGame (linesBehind k content.lines) = some (t, rest)) :
    ((Source.readAt tree compression path).IsConvertible → content.fault = none ∨ rest ≠ [] →
      ∃ game, (Source.readAt tree compression path).games[k]? = some game) ∧
    ∀ game, (Source.readAt tree compression path).games[k]? = some game →
      game.IsDiagnosed path (1 + k) (linesBehind k content.lines) rest t.headers.complaints := by
  rw [Source.readAt, hopen]
  refine ⟨fun hconv hwhole => ?_, fun game hgame => SourceReading.isDiagnosed ht hgame⟩
  refine SourceReading.exists_getElem? k ht (hwhole.imp_left fun hnone => ?_) hconv
  rw [hnone]
  rfl

/-- A tree with one file, of which the path and the ASCII text are given. -/
def oneFile (path t : Text) : FileTree :=
  FileTree.empty.add [path] (.file ⟨t.map fun c => UInt8.ofNat c.toNat, ⟨[], none⟩⟩)

/-- Two games: one with a malformed tag line and a bad rating, and one with a comment that the input
cuts off. -/
def twoFaults : Text := "[bad\n[WhiteElo \"high\"]\n\n*\n\n[Event \"B\"]\n\n1. d4 \x7bopen".toList

theorem Source.failed_stages_named_unless_both_twoFaults :
    Source.openAt (oneFile ['a'] twoFaults) .plain ['a'] = .ok ⟨lines twoFaults, none⟩ ∧
    (∃ t rest game, readGame (linesBehind 0 (lines twoFaults)) = some (t, rest) ∧
      (Source.readAt (oneFile ['a'] twoFaults) .plain ['a']).games[0]? = some game ∧
      game.diagnostic = some (stageDiagnostic (.badTagLine "[bad".toList) ['a'] 1) ∧
      NamesFailedStages ['a'] 1 (lines twoFaults) rest
        (game.diagnostic.toList ++ t.headers.complaints)) ∧
    ∃ t game, readGame (linesBehind 1 (lines twoFaults)) = some (t, []) ∧
      (Source.readAt (oneFile ['a'] twoFaults) .plain ['a']).games[1]? = some game ∧
      game.diagnostic = some (stageDiagnostic .unterminatedComment ['a'] 2) ∧
      NamesFailedStages ['a'] 2 (linesBehind 1 (lines twoFaults)) []
        (game.diagnostic.toList ++ t.headers.complaints) := by
  have hopen : Source.openAt (oneFile ['a'] twoFaults) .plain ['a'] = .ok ⟨lines twoFaults, none⟩ :=
    rfl
  have hending : (Source.readAt (oneFile ['a'] twoFaults) .plain ['a']).ending = .complete := by
    decide +kernel
  have hconv : (Source.readAt (oneFile ['a'] twoFaults) .plain ['a']).IsConvertible := by
    intro n
    rw [hending]
    simp
  refine ⟨hopen, ?_, ?_⟩
  · have hfirst : (readGame (linesBehind 0 (lines twoFaults))).map (·.2.isEmpty) = some false := by
      decide +kernel
    have hbad : badTagLine? (lines twoFaults) = some "[bad\n".toList := by decide +kernel
    obtain ⟨⟨t, rest⟩, ht, hrest⟩ := Option.map_eq_some_iff.1 hfirst
    obtain ⟨hexists, hall⟩ := Source.failed_stages_named_unless_both hopen ht
    obtain ⟨game, hgame⟩ := hexists hconv (Or.inl rfl)
    have hdiagnosed : game.IsDiagnosed ['a'] 1 (lines twoFaults) rest _ := hall game hgame
    have hends : ¬EndsInComment (lines twoFaults) rest := by
      rintro ⟨rfl, _⟩
      cases hrest
    refine ⟨t, rest, game, ht, hgame, ?_, hdiagnosed.namesFailedStages.2 fun h => hends h.2⟩
    rw [hdiagnosed.headers hends, hbad]
    rfl
  · have hsecond : (readGame (linesBehind 1 (lines twoFaults))).map (·.2) = some [] := by
      decide +kernel
    have hopenComment : (openAtEnd (linesBehind 1 (lines twoFaults))).comment = true := by
      decide +kernel
    have hsound : badTagLine? (linesBehind 1 (lines twoFaults)) = none := by decide +kernel
    obtain ⟨⟨t, rest⟩, ht, hrest⟩ := Option.map_eq_some_iff.1 hsecond
    obtain rfl : rest = [] := hrest
    obtain ⟨hexists, hall⟩ := Source.failed_stages_named_unless_both hopen ht
    obtain ⟨game, hgame⟩ := hexists hconv (Or.inl rfl)
    have hdiagnosed : game.IsDiagnosed ['a'] 2 (linesBehind 1 (lines twoFaults)) [] _ :=
      hall game hgame
    refine ⟨t, game, ht, hgame, hdiagnosed.movetext ⟨rfl, hopenComment⟩,
      hdiagnosed.namesFailedStages.2 ?_⟩
    rintro ⟨hmalformed, _⟩
    rw [← badTagLine?_isSome_iff, hsound] at hmalformed
    cases hmalformed

/-- A game with a malformed tag line and a comment that the input cuts off. -/
def bothFaults : Text := "[bad\n\n1. e4 \x7bopen".toList

/-- Where the tag section and the movetext of a game both fail, the record says nothing of the tag
section. -/
theorem Source.failed_headers_unnamed :
    Source.openAt (oneFile ['a'] bothFaults) .plain ['a'] = .ok ⟨lines bothFaults, none⟩ ∧
    HasMalformedTag (lines bothFaults) ∧
    (readGame (lines bothFaults)).map (·.2) = some [] ∧ EndsInComment (lines bothFaults) [] ∧
    (Source.readAt (oneFile ['a'] bothFaults) .plain ['a']).games.map (·.record.parseError) =
      [some (stageDiagnostic .unterminatedComment ['a'] 1)] ∧
    ¬"stage=headers".toList <:+: stageDiagnostic .unterminatedComment ['a'] 1 := by
  refine ⟨rfl, ?_, by decide +kernel, ⟨rfl, by decide +kernel⟩, by decide +kernel,
    by decide +kernel⟩
  exact ⟨"[bad\n".toList, by decide +kernel, by decide +kernel⟩

end Scoresheet
