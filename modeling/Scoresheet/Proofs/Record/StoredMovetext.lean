import Scoresheet.Proofs.Mainline.Analyses
import Scoresheet.Proofs.Mainline.PlainText
import Scoresheet.Proofs.Pgn.Protocol
import Scoresheet.Proofs.Record.Candidates
import Scoresheet.Store.Row

/-!
# Stored movetexts are read back

The movetext of a record is a plain movetext: an assembly writes a word for each move and for each
comment of the game (`words_of_hearAll`), and the row that is stored has spaces for the NUL
characters in it. Reading either text gives the moves that the game reported
(`Record.movetext_rereads`), whether the game was finished or broke off at a malformed place.
-/

namespace Scoresheet

open Text Pgn

/-! ## The words of an assembly -/

namespace PlainItem

/-- What stands between the braces of a comment that is written. -/
def spaced (text : Text) : Text := ' ' :: (join [' '] (words text) ++ [' '])

/-- The item that is written for an event. -/
def ofEvent? : Event → Option PlainItem
  | .san token => some (move token)
  | .comment text => some (comment (spaced text))
  | _ => none

theorem word_comment_spaced (ply : Nat) (text : Text) :
    (comment (spaced text)).word ply = Assembly.commentWord text := by
  simp [word, spaced, Assembly.commentWord]

theorem not_mem_spaced {text : Text} (h : '}' ∉ text) : '}' ∉ spaced text := by
  have hjoin : '}' ∉ join [' '] (words text) :=
    not_mem_join (by decide) fun _ hw hc => h (mem_of_mem_words hw hc).1
  simp [spaced, hjoin]

/-- What is written for the events of a game is sound. -/
theorem isSound_of_ofEvent? {e : Event} (he : e.IsWellSpelled) {item : PlainItem}
    (h : ofEvent? e = some item) : item.IsSound := by
  unfold ofEvent? at h
  split at h
  · obtain rfl := Option.some.inj h
    exact he
  · obtain rfl := Option.some.inj h
    exact not_mem_spaced he
  · simp at h

/-- The moves of the items are those of the events. -/
theorem filterMap_san?_ofEvent? (events : List Event) :
    (events.filterMap ofEvent?).filterMap san? = events.filterMap Transcript.san? := by
  rw [List.filterMap_filterMap]
  refine List.filterMap_congr fun e _ => ?_
  cases e <;> rfl

/-- Without comments the items are the moves. -/
theorem filterMap_ofEvent?_of_not_isComment {events : List Event}
    (h : ∀ e ∈ events, e.isComment = false) :
    events.filterMap ofEvent? = (events.filterMap Transcript.san?).map move := by
  rw [List.map_filterMap]
  refine List.filterMap_congr fun e he => ?_
  have hcomment := h e he
  cases e with
  | comment text => simp [Event.isComment] at hcomment
  | _ => rfl

end PlainItem

namespace Assembly

/-- **An assembly writes a word for each move and each comment** that it hears of one game. -/
theorem words_of_hearAll {events : List Event} (h : ∀ e ∈ events, e ≠ .beginTags)
    {a b : Assembly} (hb : a.hearAll events = .ok b) :
    b.words.reverse
      = a.words.reverse ++ plainWords a.moveCount (events.filterMap PlainItem.ofEvent?) := by
  -- on the events, with the assembly general: its words and its count of moves grow together
  induction events generalizing a with
  | nil =>
    obtain rfl : a = b := by simpa [hearAll] using hb
    simp [plainWords]
  | cons e events ih =>
    obtain ⟨he, hevents⟩ := List.forall_mem_cons.1 h
    cases e with
    | beginTags => exact absurd rfl he
    | san token =>
      have hwords := ih hevents (a := { a with
        words := Mainline.moveWord a.moveCount token :: a.words
        moveCount := a.moveCount + 1 }) hb
      have hitem : PlainItem.ofEvent? (.san token) = some (.move token) := rfl
      rw [hwords, List.filterMap_cons_some hitem, plainWords, List.reverse_cons,
        List.append_assoc]
      rfl
    | comment text =>
      have hwords := ih hevents (a := { a with words := commentWord text :: a.words }) hb
      have hitem : PlainItem.ofEvent? (.comment text) = some (.comment (PlainItem.spaced text)) :=
        rfl
      rw [hwords, List.filterMap_cons_some hitem, plainWords, PlainItem.word_comment_spaced,
        List.reverse_cons, List.append_assoc]
      rfl
    | endGame =>
      rw [hearAll, hear, finish] at hb
      cases hbuild : a.build [] with
      | error n => simp [hbuild, bind, Except.bind, Except.map] at hb
      | ok record =>
        rw [hbuild] at hb
        exact ih hevents (a := { a with phase := .idle, record := some record }) hb
    | tag key value => exact ih hevents (a := { a with headers := a.headers.add ⟨key, value⟩ }) hb
    | beginMovetext => exact ih hevents (a := { a with phase := .collectingMoves }) hb
    | outcome marker => exact ih hevents (a := { a with outcome := some marker }) hb
    | partialComment _ | nag _ | beginVariation => exact ih hevents hb

end Assembly

/-! ## The movetext of a record -/

/-- The plain movetext that is written for a game. -/
def Pgn.Transcript.plainItems (t : Transcript) : List PlainItem :=
  t.events.filterMap PlainItem.ofEvent?

namespace Record

theorem movetext_of_build {h : Headers} {movetext : Text} {outcome : Option Text}
    {diagnostic : Text} {r : Record} (hr : build h movetext outcome diagnostic = .ok r) :
    r.movetext = movetext := by
  obtain ⟨_, _, _, _, _, _, _, _, rfl⟩ := build_eq_ok.1 hr
  rfl

variable {path : Text} {gameIndex : Nat} {t : Transcript} {r : Record}

theorem movetext_of_ofTranscript (ht : t.IsFramed)
    (hr : ofTranscript path gameIndex t = .ok r) :
    r.movetext = trim (join [' '] (plainWords 0 t.plainItems)) := by
  obtain ⟨more, hmore, hreset⟩ := ht.exists_cons
  have hitems : t.plainItems = more.filterMap PlainItem.ofEvent? := by
    rw [Transcript.plainItems, hmore, List.filterMap_cons_none rfl]
  rw [ofTranscript, hmore, Assembly.hearAll_beginTags] at hr
  cases ha : Assembly.start.hearAll (.beginTags :: more) with
  | error n => simp [ha, bind, Except.bind] at hr
  | ok a =>
    have hwords := Assembly.words_of_hearAll hreset
      (a := { Assembly.start with phase := .collectingHeaders }) ha
    have hbuild : ∃ note, a.build note = .ok r := by
      simp only [ha, bind, Except.bind] at hr
      split at hr
      · simp at hr
      · exact ⟨_, hr⟩
    obtain ⟨note, hbuild⟩ := hbuild
    rw [movetext_of_build hbuild, Assembly.movetext, hwords, hitems]
    rfl

end Record

theorem Pgn.Transcript.isSound_plainItems {t : Transcript}
    (h : ∀ e ∈ t.events, e.IsWellSpelled) : ∀ item ∈ t.plainItems, item.IsSound := by
  intro item hitem
  obtain ⟨e, he, hof⟩ := List.mem_filterMap.1 hitem
  exact PlainItem.isSound_of_ofEvent? (h e he) hof

/-! ## Without NUL characters -/

namespace PlainItem

/-- The item with a space for each NUL character. -/
def withoutNul : PlainItem → PlainItem
  | move san => move san
  | comment body => comment (replaceChar '\x00' ' ' body)

theorem isSound_withoutNul {item : PlainItem} (h : item.IsSound) : item.withoutNul.IsSound := by
  cases item with
  | move san => exact h
  | comment body =>
    intro hmem
    obtain ⟨c, hc, hreplaced⟩ := List.mem_map.1 hmem
    split at hreplaced
    · simp at hreplaced
    · rw [hreplaced] at hc
      exact h hc

/-- Moves and their numbers hold no NUL character. -/
theorem nul_not_mem_moveWord {san : Text} (h : (move san).IsSound) (ply : Nat) :
    '\x00' ∉ Mainline.moveWord ply san := by
  have hsan : '\x00' ∉ san := fun hc =>
    absurd (Chess.San.mem_alphabet_of_mem_canonical h hc) (by decide)
  have hnumber : '\x00' ∉ (plainNumber ply).toText := fun hc =>
    (MoveNumber.isNumberChar_of_mem hc).not_mem (l := ['\x00']) (by decide) List.mem_cons_self
  rw [moveWord_eq]
  split
  · simp [hsan, hnumber, oneSpace]
  · exact hsan

theorem word_withoutNul {item : PlainItem} (h : item.IsSound) (ply : Nat) :
    item.withoutNul.word ply = replaceChar '\x00' ' ' (item.word ply) := by
  cases item with
  | move san => rw [withoutNul, word, replaceChar_of_not_mem (nul_not_mem_moveWord h ply)]
  | comment body => simp [withoutNul, word, replaceChar]

theorem plies_withoutNul (item : PlainItem) : item.withoutNul.plies = item.plies := by
  cases item <;> rfl

end PlainItem

theorem plainWords_withoutNul {items : List PlainItem} (h : ∀ item ∈ items, item.IsSound)
    (ply : Nat) :
    plainWords ply (items.map PlainItem.withoutNul)
      = (plainWords ply items).map (replaceChar '\x00' ' ') := by
  induction items generalizing ply with
  | nil => rfl
  | cons item items ih =>
    obtain ⟨hitem, hitems⟩ := List.forall_mem_cons.1 h
    rw [List.map_cons, plainWords, plainWords, List.map_cons, PlainItem.word_withoutNul hitem,
      PlainItem.plies_withoutNul, ih hitems]

theorem filterMap_san?_withoutNul (items : List PlainItem) :
    (items.map PlainItem.withoutNul).filterMap PlainItem.san?
      = items.filterMap PlainItem.san? := by
  rw [List.filterMap_map]
  refine List.filterMap_congr fun item _ => ?_
  cases item <;> rfl

/-- The cell of the movetext in the row that is stored. -/
theorem GameRow.ofRecord_movetext (r : Record) :
    GameRow.ofRecord r .movetext = .text (replaceChar '\x00' ' ' r.movetext) := rfl

/-! ## Reading back -/

/-- What is read of a text with a main line that is complete and without a result. -/
theorem rereads_of_ofMovetext {m : Text} {sans : List Text}
    (h : Mainline.ofMovetext m = .ok ⟨sans, none, false⟩) :
    Mainline.ofMovetext m = .ok ⟨sans, none, false⟩ ∧ plyCount m = .ok sans.length ∧
      normalize m = .ok (Mainline.renderSans sans) :=
  ⟨h, plyCount_of_ofMovetext h, normalize_of_ofMovetext h⟩

/-- **A stored movetext gives back the moves that were read**: the movetext of a record and the one
in the row of the record both have the moves of the game for their main line, without a result and
without a fault. If the game has no comment the movetext is the numbered text of these moves. -/
theorem Record.movetext_rereads {text path : Text} {gameIndex : Nat} {t : Transcript} {r : Record}
    (ht : t ∈ readGames (lines text)) (hr : Record.ofTranscript path gameIndex t = .ok r) :
    ∃ stored, GameRow.ofRecord r .movetext = .text stored ∧
      (∀ m ∈ [r.movetext, stored], Mainline.ofMovetext m = .ok ⟨t.sans, none, false⟩ ∧
        plyCount m = .ok t.sans.length ∧ normalize m = .ok (Mainline.renderSans t.sans)) ∧
      ((∀ e ∈ t.events, e.isComment = false) → r.movetext = Mainline.renderSans t.sans) := by
  have hsound := t.isSound_plainItems (isWellSpelled_of_mem_readGames ht)
  have htight : ∀ w ∈ plainWords 0 t.plainItems, IsTight w :=
    fun w hw => isTight_of_mem_plainWords hsound hw
  have hmovetext : r.movetext = join [' '] (plainWords 0 t.plainItems) := by
    rw [movetext_of_ofTranscript (isFramed_of_mem_readGames ht) hr, trim_join htight]
  have hsans : t.plainItems.filterMap PlainItem.san? = t.sans :=
    PlainItem.filterMap_san?_ofEvent? t.events
  have hstored : replaceChar '\x00' ' ' r.movetext
      = join [' '] (plainWords 0 (t.plainItems.map PlainItem.withoutNul)) := by
    rw [hmovetext, replaceChar_join (by decide), plainWords_withoutNul hsound]
  have hsound' : ∀ item ∈ t.plainItems.map PlainItem.withoutNul, item.IsSound :=
    List.forall_mem_map.2 fun item hitem => item.isSound_withoutNul (hsound item hitem)
  refine ⟨_, GameRow.ofRecord_movetext r, ?_, ?_⟩
  · simp only [List.forall_mem_cons]
    refine ⟨rereads_of_ofMovetext ?_, rereads_of_ofMovetext ?_, by simp⟩
    · rw [hmovetext, ofMovetext_plainWords hsound, hsans]
    · rw [hstored, ofMovetext_plainWords hsound', filterMap_san?_withoutNul, hsans]
  · intro hcomments
    rw [hmovetext, Transcript.plainItems,
      PlainItem.filterMap_ofEvent?_of_not_isComment hcomments, plainWords_move]
    rfl

/-- A game that is cut off in a comment. The comment before it holds a NUL character and what looks
like a tag pair on a line of its own. -/
def cutOffGame : Text := "1. e4 \x7bgood\x00\n[White \"A\"]\x7d e5 \x7bbut".toList

theorem Record.movetext_rereads_cutOffGame :
    ∃ t r, t ∈ readGames (lines cutOffGame) ∧
      Record.ofTranscript "a.pgn".toList 0 t = .ok r ∧
      t.error = some (.malformed .unterminatedComment) ∧
      r.movetext = "1. e4 \x7b good\x00 [White \"A\"] \x7d e5".toList ∧
      ∃ stored, GameRow.ofRecord r .movetext = .text stored ∧
        Mainline.ofMovetext stored = .ok ⟨["e4".toList, "e5".toList], none, false⟩ := by
  have hread : readGame (lines cutOffGame) = some (gameFrom (lines cutOffGame)) := by
    decide +kernel
  have ht : (gameFrom (lines cutOffGame)).1 ∈ readGames (lines cutOffGame) := by
    rw [readGames_of_some hread]
    exact List.mem_cons_self
  have hsans : (gameFrom (lines cutOffGame)).1.sans = ["e4".toList, "e5".toList] := by
    decide +kernel
  have herror : (gameFrom (lines cutOffGame)).1.error
      = some (.malformed .unterminatedComment) := by decide +kernel
  have hmovetext : (Record.ofTranscript "a.pgn".toList 0 (gameFrom (lines cutOffGame)).1).map
      Record.movetext = .ok "1. e4 \x7b good\x00 [White \"A\"] \x7d e5".toList := by
    decide +kernel
  cases hr : Record.ofTranscript "a.pgn".toList 0 (gameFrom (lines cutOffGame)).1 with
  | error n =>
    rw [hr] at hmovetext
    simp [Except.map] at hmovetext
  | ok r =>
    rw [hr] at hmovetext
    obtain ⟨stored, hstored, hrereads, _⟩ := Record.movetext_rereads ht hr
    have hmain := (hrereads stored (by simp)).1
    rw [hsans] at hmain
    exact ⟨_, r, ht, hr, herror, Except.ok.inj hmovetext, stored, hstored, hmain⟩

end Scoresheet
