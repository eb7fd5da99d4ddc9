import Scoresheet.Proofs.Pgn.TranscriptShape
import Scoresheet.Record.Assembly

/-!
# One assembly for all games

The games of a file are played to one assembly after another, and a record is read off it after
each game. Nothing of one game reaches the record of the next: the first event of a game resets the
assembly. So the records are those of games that are read each with an assembly of its own
(`Assembly.records_eq`), and games behind others only have their numbers shifted
(`Record.ofTranscripts_append`).
-/

namespace Scoresheet

open Text Pgn

/-! ## Playing games -/

namespace Assembly

/-- The assembly after a game, the `gameIndex`-th of the file at `path`; a malformed game is
finished with a diagnostic. -/
def play (a : Assembly) (path : Text) (gameIndex : Nat) (t : Transcript) :
    Except OversizedNumeral Assembly := do
  let a ← a.hearAll t.events
  match t.error with
  | none => .ok a
  | some (.malformed fault) => a.finalizePartial (stageDiagnostic fault path gameIndex)
  | some (.oversizedNag numeral) => .error numeral

/-- The records that are read off one assembly after each of the games. -/
def records (a : Assembly) (path : Text) (gameIndex : Nat) :
    List Transcript → Except OversizedNumeral (List Record)
  | [] => .ok []
  | t :: ts => do
    let a ← a.play path gameIndex t
    let more ← a.records path (gameIndex + 1) ts
    return a.record.toList ++ more

end Assembly

/-! ## One game -/

namespace Assembly

variable {a : Assembly}

theorem hearAll_append (events more : List Event) :
    a.hearAll (events ++ more) = (a.hearAll events).bind fun b => b.hearAll more := by
  induction events generalizing a with
  | nil => rfl
  | cons e events ih =>
    rw [List.cons_append, hearAll, hearAll]
    cases a.hear e with
    | error n => rfl
    | ok b => exact ih

/-- The first event of a game wipes out what was heard before. -/
theorem hearAll_beginTags (a : Assembly) (events : List Event) :
    a.hearAll (.beginTags :: events) = start.hearAll (.beginTags :: events) := rfl

theorem hearAll_endGame (a : Assembly) : a.hearAll [.endGame] = a.finish [] := by
  rw [hearAll, hear]
  cases a.finish [] <;> rfl

/-- Finishing a game leaves all that a record is built from. -/
theorem finish_bind_build (a : Assembly) (diagnostic : Text) :
    ((a.finish diagnostic).bind fun b => b.build diagnostic) = a.build diagnostic := by
  unfold finish
  cases hb : a.build diagnostic with
  | error n => rfl
  | ok record => exact hb

theorem finish_map_record (a : Assembly) (diagnostic : Text) :
    (a.finish diagnostic).map record = (a.build diagnostic).map some := by
  unfold finish
  cases a.build diagnostic <;> rfl

/-- **After a game an assembly holds the record of that game**, whatever it heard before. -/
theorem play_map_record (a : Assembly) (path : Text) (gameIndex : Nat) {t : Transcript}
    (ht : t.IsFramed) :
    (a.play path gameIndex t).map record = (Record.ofTranscript path gameIndex t).map some := by
  obtain ⟨events, _, hevents⟩ := ht
  cases he : t.error with
  | none =>
    have hevents : t.events = .beginTags :: events ++ [.endGame] := by simpa [he] using hevents
    -- the first event resets the assembly, so any other one may stand for it
    unfold play Record.ofTranscript
    rw [hevents, List.cons_append, a.hearAll_beginTags, ← List.cons_append, hearAll_append]
    cases hb : start.hearAll (.beginTags :: events) with
    | error n => rfl
    | ok b =>
      rw [he, diagnostic?, he]
      show ((b.hearAll [.endGame]).bind Except.ok).map record
        = ((b.hearAll [.endGame]).bind fun c => c.build []).map some
      rw [b.hearAll_endGame, b.finish_bind_build, ← b.finish_map_record]
      cases b.finish [] <;> rfl
  | some e =>
    have hevents : t.events = .beginTags :: events := by simpa [he] using hevents
    unfold play Record.ofTranscript
    rw [hevents, a.hearAll_beginTags]
    cases hb : start.hearAll (.beginTags :: events) with
    | error n => rfl
    | ok b =>
      cases e with
      | oversizedNag n => simp [bind, Except.bind, he, Except.map]
      | malformed fault =>
        simp only [bind, Except.bind, he, diagnostic?, Option.getD_some]
        exact b.finalizing.finish_map_record _

/-! ## All games -/

/-- **Games played to one assembly give the records of games read each on its own.** -/
theorem records_eq (path : Text) {ts : List Transcript} (hts : ∀ t ∈ ts, t.IsFramed) :
    ∀ (a : Assembly) (gameIndex : Nat),
      a.records path gameIndex ts = Record.ofTranscripts path gameIndex ts := by
  induction ts with
  | nil => exact fun _ _ => rfl
  | cons t ts ih =>
    intro a gameIndex
    have hplay := a.play_map_record path gameIndex (hts t List.mem_cons_self)
    have hrest := ih fun u hu => hts u (List.mem_cons_of_mem _ hu)
    rw [records, Record.ofTranscripts]
    cases hp : a.play path gameIndex t with
    | error n =>
      cases hr : Record.ofTranscript path gameIndex t with
      | error m =>
        rw [hp, hr] at hplay
        simpa [bind, Except.bind, Except.map] using hplay
      | ok r =>
        rw [hp, hr] at hplay
        simp [Except.map] at hplay
    | ok b =>
      cases hr : Record.ofTranscript path gameIndex t with
      | error m =>
        rw [hp, hr] at hplay
        simp [Except.map] at hplay
      | ok r =>
        rw [hp, hr] at hplay
        have hb : b.record = some r := by simpa [Except.map] using hplay
        simp only [bind, Except.bind, hrest, hb]
        rfl

end Assembly

namespace Record

theorem ofTranscripts_append (path : Text) (ts us : List Transcript) : ∀ gameIndex : Nat,
    ofTranscripts path gameIndex (ts ++ us) = (do
      let records ← ofTranscripts path gameIndex ts
      let more ← ofTranscripts path (gameIndex + ts.length) us
      return records ++ more) := by
  induction ts with
  | nil =>
    intro gameIndex
    rw [List.nil_append, ofTranscripts, List.length_nil, Nat.add_zero]
    cases ofTranscripts path gameIndex us <;> rfl
  | cons t ts ih =>
    intro gameIndex
    have hindex : gameIndex + (t :: ts).length = gameIndex + 1 + ts.length := by
      rw [List.length_cons]
      omega
    rw [List.cons_append, ofTranscripts, ofTranscripts, ih, hindex]
    cases ofTranscript path gameIndex t with
    | error n => rfl
    | ok r =>
      cases ofTranscripts path (gameIndex + 1) ts with
      | error n => rfl
      | ok rs =>
        cases ofTranscripts path (gameIndex + 1 + ts.length) us with
        | error n => rfl
        | ok more => simp [bind, Except.bind, pure, Except.pure]

theorem ofTranscripts_cons_eq_ok {path : Text} {gameIndex : Nat} {t : Transcript}
    {ts : List Transcript} {records : List Record} :
    ofTranscripts path gameIndex (t :: ts) = .ok records ↔
      ∃ r rs, ofTranscript path gameIndex t = .ok r
        ∧ ofTranscripts path (gameIndex + 1) ts = .ok rs ∧ records = r :: rs := by
  rw [ofTranscripts]
  constructor
  · intro h
    cases hr : ofTranscript path gameIndex t with
    | error n => simp [hr, bind, Except.bind] at h
    | ok r =>
      cases hrs : ofTranscripts path (gameIndex + 1) ts with
      | error n => simp [hr, hrs, bind, Except.bind] at h
      | ok rs =>
        simp only [hr, hrs, bind, Except.bind, pure, Except.pure, Except.ok.injEq] at h
        exact ⟨r, rs, rfl, rfl, h.symm⟩
  · rintro ⟨r, rs, hr, hrs, rfl⟩
    rw [hr, hrs]
    rfl

/-- **The records of games are the records of each, in order.** -/
theorem ofTranscripts_eq_ok (path : Text) {ts : List Transcript} :
    ∀ (gameIndex : Nat) {records : List Record}, ofTranscripts path gameIndex ts = .ok records ↔
      records.length = ts.length ∧ ∀ k t r, ts[k]? = some t → records[k]? = some r →
        ofTranscript path (gameIndex + k) t = .ok r := by
  induction ts with
  | nil =>
    intro gameIndex records
    constructor
    · intro h
      obtain rfl : records = [] := by simpa [ofTranscripts] using h.symm
      refine ⟨rfl, fun k t r ht => ?_⟩
      simp at ht
    · rintro ⟨hlength, _⟩
      obtain rfl : records = [] := List.eq_nil_of_length_eq_zero hlength
      rfl
  | cons t ts ih =>
    intro gameIndex records
    rw [ofTranscripts_cons_eq_ok]
    constructor
    · rintro ⟨r, rs, hr, hrs, rfl⟩
      obtain ⟨hlength, hall⟩ := (ih (gameIndex + 1)).1 hrs
      refine ⟨by rw [List.length_cons, List.length_cons, hlength], fun k u q hu hq => ?_⟩
      cases k with
      | zero =>
        obtain rfl : t = u := by simpa using hu
        obtain rfl : r = q := by simpa using hq
        exact hr
      | succ k =>
        have hindex : gameIndex + (k + 1) = gameIndex + 1 + k := by omega
        rw [hindex]
        exact hall k u q (by simpa using hu) (by simpa using hq)
    · rintro ⟨hlength, hall⟩
      cases records with
      | nil => simp at hlength
      | cons r rs =>
        refine ⟨r, rs, hall 0 t r rfl rfl, (ih (gameIndex + 1)).2 ⟨by simpa using hlength, ?_⟩, rfl⟩
        intro k u q hu hq
        have hindex : gameIndex + 1 + k = gameIndex + (k + 1) := by omega
        rw [hindex]
        exact hall (k + 1) u q (by simpa using hu) (by simpa using hq)

end Record

end Scoresheet
