import Scoresheet.Proofs.Reading.MalformedTags
import Scoresheet.Proofs.Reading.SourceGames

/-!
# Streams that break off

Of a stream that comes to a fault only lines that have ended are read. They are lines of the whole
text, whatever octets would have come (`Source.lines_contentOf_prefix`): a character of which octets
are missing and a carriage return that a line feed could follow are left out. What is read of a game
that is known to be complete does not depend on the lines that would have come, so the games of a
broken source are the first games of the whole one (`Source.games_contentOf_prefix`).
-/

namespace Scoresheet

open Text Pgn

/-! ## Octets and line ends -/

namespace Text

theorem decodeFrom_prefix (brokenOff : Text) (octets more : List UInt8) (p : Option PartialChar) :
    decodeFrom [] p octets <+: decodeFrom brokenOff p (octets ++ more) := by
  induction octets generalizing p with
  | nil =>
    rw [decodeFrom, ite_self]
    exact List.nil_prefix
  | cons b octets ih =>
    rw [List.cons_append, decodeFrom, decodeFrom]
    dsimp only
    split
    · exact (List.prefix_append_right_inj _).2 (ih _)
    · refine (List.prefix_append_right_inj _).2 ?_
      cases LeadOctet.ofOctet b with
      | complete c => exact List.cons_prefix_cons.2 ⟨rfl, ih none⟩
      | begins p => exact ih (some p)
      | invalid => exact List.cons_prefix_cons.2 ⟨rfl, ih none⟩

theorem unifyNewlines_cons {c : Char} (h : c ≠ '\r') (t : Text) :
    unifyNewlines (c :: t) = c :: unifyNewlines t := by
  rw [unifyNewlines]
  · exact fun _ hc _ => h hc
  · exact h

theorem unifyNewlines_return {t : Text} (h : t.head? ≠ some '\n') :
    unifyNewlines ('\r' :: t) = '\n' :: unifyNewlines t := by
  rw [unifyNewlines]
  rintro u rfl
  exact h rfl

theorem holdBackReturn_cons {c : Char} {t : Text} (h : c ≠ '\r' ∨ t ≠ []) :
    holdBackReturn (c :: t) = c :: holdBackReturn t := by
  unfold holdBackReturn
  cases t with
  | nil =>
    have hc : c ≠ '\r' := h.resolve_right (not_not_intro rfl)
    simp [hc]
  | cons d t =>
    rw [List.getLast?_cons_cons, List.dropLast_cons_cons]
    split <;> rfl

theorem head?_holdBackReturn_ne {c : Char} {t : Text} (h : t.head? ≠ some c) :
    (holdBackReturn t).head? ≠ some c := by
  unfold holdBackReturn
  split
  · match t with
    | [] | [_] => simp
    | _ :: _ :: _ => exact h
  · exact h

/-- A carriage return that a line feed could follow is left out, so what stands before it keeps its
line ends. -/
theorem unifyNewlines_prefix (t more : Text) :
    unifyNewlines (holdBackReturn t) <+: unifyNewlines (t ++ more) := by
  fun_induction unifyNewlines t with
  | case1 t ih =>
    rw [holdBackReturn_cons (Or.inr (List.cons_ne_nil _ _)),
      holdBackReturn_cons (Or.inl (by decide)), List.cons_append, List.cons_append, unifyNewlines,
      unifyNewlines]
    exact List.cons_prefix_cons.2 ⟨rfl, ih⟩
  | case2 t hnot ih =>
    cases t with
    | nil => exact List.nil_prefix
    | cons c t =>
      have hhead : (c :: t).head? ≠ some '\n' := fun hc => hnot t (by simpa using hc)
      rw [holdBackReturn_cons (Or.inr (List.cons_ne_nil _ _)), List.cons_append,
        unifyNewlines_return (head?_holdBackReturn_ne hhead),
        unifyNewlines_return (t := c :: t ++ more) hhead]
      exact List.cons_prefix_cons.2 ⟨rfl, ih⟩
  | case3 c t hnot hc ih =>
    have hne : c ≠ '\r' := hc
    rw [holdBackReturn_cons (Or.inl hne), List.cons_append, unifyNewlines_cons hne,
      unifyNewlines_cons hne]
    exact List.cons_prefix_cons.2 ⟨rfl, ih⟩
  | case4 => exact List.nil_prefix

/-- The lines that have ended come before the one that has not. -/
theorem AreLines.filter_ended {ls : List Line} (h : AreLines ls) :
    ls.filter (fun line => line.getLast? == some '\n') <+: ls ∧
      ((ls.filter fun line => line.getLast? == some '\n').flatten = [] ∨
        (ls.filter fun line => line.getLast? == some '\n').flatten.getLast? = some '\n') := by
  induction h with
  | nil => exact ⟨List.nil_prefix, Or.inl rfl⟩
  | @last t hne h =>
    have hlast : (t.getLast? == some '\n') = false := by
      rw [beq_eq_false_iff_ne]
      exact fun hlast => h (List.mem_of_getLast? hlast)
    rw [List.filter_cons_of_neg (by simp [hlast])]
    exact ⟨List.nil_prefix, Or.inl rfl⟩
  | @cons t ls h hls ih =>
    rw [List.filter_cons_of_pos (by simp)]
    refine ⟨List.cons_prefix_cons.2 ⟨rfl, ih.1⟩, Or.inr ?_⟩
    rw [List.flatten_cons]
    rcases ih.2 with hnil | hlast
    · rw [hnil]
      simp
    · rw [List.getLast?_append, hlast]
      rfl

/-- Lines that have ended are lines of any longer text. -/
theorem filter_lines_prefix (t more : Text) :
    (lines t).filter (fun line => line.getLast? == some '\n') <+: lines (t ++ more) := by
  obtain ⟨⟨last, hsplit⟩, hend⟩ := (areLines_lines t).filter_ended
  have hmore : t ++ more = ((lines t).filter fun line => line.getLast? == some '\n').flatten
      ++ (last.flatten ++ more) := by
    rw [← List.append_assoc, ← List.flatten_append, hsplit, flatten_lines]
  rw [hmore, lines_append hend, lines_flatten_of_sublist List.filter_sublist]
  exact List.prefix_append _ _

/-- Ended lines of a text are lines of any longer one. -/
theorem endedLines_prefix (t more : Text) :
    endedLines t <+: lines (unifyNewlines (t ++ more)) := by
  obtain ⟨rest, hrest⟩ := unifyNewlines_prefix t more
  rw [← hrest]
  exact filter_lines_prefix _ rest

end Text

/-- **The lines of a stream that breaks off** are the first lines of the whole one. -/
theorem Source.lines_contentOf_prefix (octets more : List UInt8) (cause : Text) :
    (contentOf ⟨octets, some cause⟩).lines <+: (contentOf ⟨octets ++ more, none⟩).lines := by
  obtain ⟨rest, hrest⟩ := decodeFrom_prefix [replacement] octets more none
  show endedLines (decodeUtf8SoFar octets) <+: lines (unifyNewlines (decodeUtf8 (octets ++ more)))
  rw [decodeUtf8, ← hrest]
  exact endedLines_prefix _ rest

/-! ## Games -/

namespace Pgn

variable {lines rest : List Line} {t : Transcript}

/-- A movetext that leaves lines behind does not depend on what comes after them. -/
theorem scanLines_append_of_rest {s : Cursor} (h : (scanLines s lines).rest ≠ [])
    (more : List Line) :
    scanLines s (lines ++ more) = ⟨(scanLines s lines).events, (scanLines s lines).ending,
      (scanLines s lines).rest ++ more⟩ := by
  induction lines generalizing s with
  | nil =>
    rw [scanLines] at h
    split at h <;> exact absurd rfl h
  | cons line lines ih =>
    rw [List.cons_append]
    rw [scanLines] at h ⊢
    rw [scanLines]
    split
    · rfl
    · rename_i hopen
      rw [if_neg hopen] at h
      split
      · rename_i hescape
        rw [if_pos hescape] at h
        exact ih h
      · rename_i hescape
        rw [if_neg hescape] at h
        rcases hscan : scanLine s [] line with ⟨events, s' | rest | e⟩
        · rw [hscan] at h
          simp only [ih h]
          rfl
        · rfl
        · rfl

/-- A game that leaves lines behind does not depend on what comes after them. -/
theorem readGame_append_of_rest (h : readGame lines = some (t, rest)) (hrest : rest ≠ [])
    (more : List Line) : readGame (lines ++ more) = some (t, rest ++ more) := by
  obtain ⟨hgame, line, hmem, hline⟩ := gameFrom_of_readGame h
  have hbody : (readTags lines).body ≠ [] := fun hbody => hrest (rest_of_body_eq_nil h hbody)
  rw [gameFrom] at hgame
  obtain ⟨rfl, rfl⟩ := Prod.mk.inj hgame
  rw [readGame_of_exists ⟨line, List.mem_append_left _ hmem, hline⟩, gameFrom,
    readTags_append_of_body more lines hbody]
  simp only [scanLines_append_of_rest hrest more]

end Pgn

/-- What is read before a text breaks off are the first games of the whole text. -/
theorem SourceReading.games_ofLines_append_prefix (path : Text) (error : SourceError)
    (fault : Option SourceError) (gameIndex : Nat) (lines more : List Line) :
    (ofLines path (some error) gameIndex lines).games
      <+: (ofLines path fault gameIndex (lines ++ more)).games := by
  fun_induction ofLines path (some error) gameIndex lines with
  | case1 => exact List.nil_prefix
  | case2 => exact List.nil_prefix
  | case3 => exact List.nil_prefix
  | case4 gameIndex lines t rest h hlost record hrecord ih =>
    have hover := Record.not_isOversized_of_ofTranscript hrecord
    have hrest : rest ≠ [] := fun hnil => hlost (by simp [hnil, hover])
    have hkept : ¬((rest ++ more).isEmpty && fault.isSome && !t.isOversized) = true := by
      simp [hrest]
    rw [ofLines_of_some (readGame_append_of_rest h hrest more), if_neg hkept, hrecord]
    exact List.cons_prefix_cons.2 ⟨rfl, ih⟩

/-- **The games of a stream that breaks off** are the first games of the whole one, and are read
alike. -/
theorem Source.games_contentOf_prefix (path : Text) (error : SourceError)
    (octets more : List UInt8) (cause : Text) :
    (SourceReading.ofLines path (some error) 1 (contentOf ⟨octets, some cause⟩).lines).games
      <+: (SourceReading.ofLines path none 1 (contentOf ⟨octets ++ more, none⟩).lines).games := by
  obtain ⟨rest, hrest⟩ := lines_contentOf_prefix octets more cause
  rw [← hrest]
  exact SourceReading.games_ofLines_append_prefix path error none 1 _ rest

end Scoresheet
