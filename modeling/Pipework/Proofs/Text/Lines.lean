import Pipework.Proofs.Text.Decoding
import Pipework.Proofs.Text.LineEnds

/-!
# Lines of a text that comes in pieces

A line reader takes in bytes piece by piece and hands out lines. How the bytes are cut does not show: at every
moment what has been handed out and what is ready are together the text of the bytes so far, with its line ends
folded, and without a carriage return at its end that is held back (`LineReader.Follows`). So what comes out in
the end are the lines of the whole text with its line ends folded.
-/

namespace Pipework

namespace LineReader

/-- Handing out a line cuts it off what is ready: up to the first line feed, or all of it at the end. -/
theorem pop?_cases (lines : LineReader) :
    (lines.pop? = none ∧ (lines.ended = true → lines.ready = [])) ∨
    ∃ line rest, lines.pop? = some (line, { lines with ready := rest }) ∧ lines.ready = line ++ rest ∧ line ≠ [] ∧
      ((∃ start, .char '\n' ∉ start ∧ line = start ++ [.char '\n']) ∨
        lines.ended = true ∧ .char '\n' ∉ line ∧ rest = []) := by
  unfold pop?
  rcases lines.ready.line_cases with noFeed | ⟨start, rest, noFeed, split⟩
  · rw [Text.splitLine?_none noFeed]
    dsimp only
    by_cases last : (lines.ended && !lines.ready.isEmpty) = true
    · rw [if_pos last]
      rw [Bool.and_eq_true, Bool.not_eq_true'] at last
      exact .inr ⟨lines.ready, [], rfl, (List.append_nil _).symm, by simpa using last.2,
        .inr ⟨last.1, noFeed, rfl⟩⟩
    · rw [if_neg last]
      exact .inl ⟨rfl, fun ended => by simpa [ended] using last⟩
  · rw [split, Text.splitLine?_line noFeed]
    exact .inr ⟨_, rest, rfl, by simp, by simp, .inl ⟨start, noFeed, rfl⟩⟩

/-- Where a line reader stands that has taken in some bytes and handed out some text. -/
inductive Follows (coding : Coding) (fed : Bytes) (out : Text) (lines : LineReader) : Prop
  /-- More may come. A carriage return at the end is held back. -/
  | reading {t : Text} (still : lines.ended = false)
    (decoder : (Decoder.feed ⟨coding, .none⟩ fed).1 = lines.decoder)
    (decoded : (Decoder.feed ⟨coding, .none⟩ fed).2.mapM Piece.strict?
      = some (t ++ if lines.heldReturn then [.char '\r'] else []))
    (folded : out ++ lines.ready = t.foldLineEnds)
    (free : lines.heldReturn = false → t.getLast? ≠ some (.char '\r'))
  /-- That was all. -/
  | done {t : Text} (ended : lines.ended = true) (decoded : coding.decode? fed = some t)
    (folded : out ++ lines.ready = t.foldLineEnds)

namespace Follows

variable {coding : Coding} {fed : Bytes} {out line rest : Text} {lines : LineReader}

theorem start (coding : Coding) : Follows coding [] [] { decoder := ⟨coding, .none⟩ } :=
  .reading (t := []) rfl rfl rfl rfl nofun

/-- A line is cut off what is ready. -/
theorem pop (follows : Follows coding fed out lines) (split : lines.ready = line ++ rest) :
    Follows coding fed (out ++ line) { lines with ready := rest } := by
  cases follows with
  | reading still decoder decoded folded free =>
    refine .reading still decoder decoded ?_ free
    rw [← folded, split, List.append_assoc]
  | done ended decoded folded =>
    refine .done ended decoded ?_
    rw [← folded, split, List.append_assoc]

private theorem length_of_mapM {pieces : List Piece} {t : Text} (decoded : pieces.mapM Piece.strict? = some t) :
    t.length = pieces.length := by
  induction pieces generalizing t with
  | nil =>
    cases decoded
    rfl
  | cons piece rest ih =>
    rw [List.mapM_cons] at decoded
    obtain ⟨r, -, decoded⟩ := Option.bind_eq_some_iff.mp decoded
    obtain ⟨others, tail, decoded⟩ := Option.bind_eq_some_iff.mp decoded
    cases decoded
    rw [List.length_cons, List.length_cons, ih tail]

/-- There are no more runes than bytes. -/
theorem length_le (follows : Follows coding fed out lines) : out.length + lines.ready.length ≤ fed.length := by
  have bytes := Decoder.feed_length ⟨coding, .none⟩ fed
  have tail := Decoder.finish_length (Decoder.feed ⟨coding, .none⟩ fed).1
  rw [Unfinished.most_none] at bytes
  cases follows with
  | reading still decoder decoded folded free =>
    have fewer := (congrArg List.length folded).trans_le (Text.foldLineEnds_length _)
    have runes := length_of_mapM decoded
    rw [List.length_append] at fewer runes
    omega
  | done ended decoded folded =>
    have fewer := (congrArg List.length folded).trans_le (Text.foldLineEnds_length _)
    rw [Coding.decode?_eq] at decoded
    have runes := length_of_mapM decoded
    rw [List.length_append] at fewer runes
    omega

/-- What a piece is read as, with the return that was held back. -/
private def unheld (lines : LineReader) (new : Text) : Text :=
  (if lines.heldReturn then [.char '\r'] else []) ++ new

private theorem unheld_eq (lines : LineReader) (new : Text) :
    (if lines.heldReturn then .char '\r' :: new else new) = unheld lines new := by
  unfold unheld
  cases lines.heldReturn <;> rfl

/-- Nothing that is read after a free end, and nothing after a return that was held back, meets it. -/
private theorem apart {t : Text} (free : lines.heldReturn = false → t.getLast? ≠ some (.char '\r')) (new : Text) :
    t.getLast? ≠ some (.char '\r') ∨ (unheld lines new).head? ≠ some (.char '\n') ∧
      (unheld lines new).dropLast.head? ≠ some (.char '\n') := by
  cases held : lines.heldReturn with
  | false => exact .inl (free held)
  | true => cases new <;> exact .inr (by simp [unheld, held])

/-- Where neither what was read nor what is read now ends with a return, the two together do not. -/
private theorem free_append {t new : Text} (free : lines.heldReturn = false → t.getLast? ≠ some (.char '\r'))
    (released : (unheld lines new).getLast? ≠ some (.char '\r')) :
    (t ++ unheld lines new).getLast? ≠ some (.char '\r') := by
  cases last : (unheld lines new).getLast? with
  | some r =>
    rw [last] at released
    rwa [List.getLast?_append, last]
  | none =>
    have empty := List.getLast?_eq_none_iff.mp last
    have notHeld : lines.heldReturn = false := by
      cases held : lines.heldReturn with
      | false => rfl
      | true => simp [unheld, held] at empty
    rw [empty, List.append_nil]
    exact free notHeld

/-- At the end all is read, with what the decoder makes of an unfinished character. -/
private theorem push?_nil (lines : LineReader) :
    lines.push? [] = (lines.decoder.finish.mapM Piece.strict?).map fun new =>
      { decoder := ⟨lines.decoder.coding, .none⟩, heldReturn := false
        ready := lines.ready ++ (unheld lines new).foldLineEnds, ended := true } := by
  simp only [push?, Decoder.feed_nil, List.isEmpty_nil, if_true, List.nil_append, unheld_eq]
  cases lines.decoder.finish.mapM Piece.strict? <;> rfl

/-- Of a piece all is read but a return at its end. -/
private theorem push?_piece (lines : LineReader) {piece : Bytes} (full : piece ≠ []) :
    lines.push? piece = ((lines.decoder.feed piece).2.mapM Piece.strict?).map fun new =>
      let hold := (unheld lines new).getLast? == some (.char '\r')
      { decoder := (lines.decoder.feed piece).1, heldReturn := hold
        ready := lines.ready ++
          Text.foldLineEnds (if hold then (unheld lines new).dropLast else unheld lines new)
        ended := false } := by
  have notEmpty : piece.isEmpty = false := by simpa using full
  simp only [push?, notEmpty, Bool.false_eq_true, if_false, Bool.not_false, Bool.true_and, unheld_eq]
  cases (lines.decoder.feed piece).2.mapM Piece.strict? <;> rfl

private theorem mapM_append_none {before middle after : List Piece} (fails : middle.mapM Piece.strict? = none) :
    (before ++ middle ++ after).mapM Piece.strict? = none := by
  rw [List.mapM_append, List.mapM_append, fails]
  cases before.mapM Piece.strict? <;> rfl

/-- The end is taken in: what is held back counts, and no unfinished character may be left. -/
private theorem pushEnd (follows : Follows coding fed out lines) (still : lines.ended = false) :
    (∃ lines', lines.push? [] = some lines' ∧ Follows coding fed out lines' ∧ lines'.ended = true ∧
      ∃ more, lines'.ready = lines.ready ++ more) ∨
    lines.push? [] = none ∧ coding.decode? fed = none := by
  cases follows with
  | done ended => exact nomatch still.symm.trans ended
  | @reading t _ decoder decoded folded free =>
    have whole := Coding.decode?_eq coding fed
    dsimp only at whole
    rw [List.mapM_append, decoded, decoder] at whole
    have pushed := push?_nil lines
    cases tail : lines.decoder.finish.mapM Piece.strict? with
    | none =>
      rw [tail] at whole pushed
      exact .inr ⟨pushed, whole⟩
    | some new =>
      rw [tail] at whole pushed
      refine .inl ⟨_, pushed, .done rfl (t := t ++ unheld lines new) ?_ ?_, rfl, _, rfl⟩
      · rw [whole, unheld, ← List.append_assoc]
        rfl
      · rw [Text.foldLineEnds_append ((apart free new).imp_right (·.1)), ← folded, List.append_assoc]

/-- A piece is taken in. If a return ends it, that is held back. -/
private theorem pushPiece (follows : Follows coding fed out lines) (still : lines.ended = false) {piece : Bytes}
    (full : piece ≠ []) :
    (∃ lines', lines.push? piece = some lines' ∧ Follows coding (fed ++ piece) out lines' ∧ lines'.ended = false ∧
      ∃ more, lines'.ready = lines.ready ++ more) ∨
    lines.push? piece = none ∧ ∀ rest, coding.decode? (fed ++ piece ++ rest) = none := by
  cases follows with
  | done ended => exact nomatch still.symm.trans ended
  | @reading t _ decoder decoded folded free =>
    have fedMore := Decoder.feed_append ⟨coding, .none⟩ fed piece
    rw [decoder] at fedMore
    have pushed := push?_piece lines full
    cases middle : (lines.decoder.feed piece).2.mapM Piece.strict? with
    | none =>
      rw [middle] at pushed
      refine .inr ⟨pushed, fun rest => ?_⟩
      rw [Coding.decode?_eq, Decoder.feed_append _ (fed ++ piece), fedMore]
      dsimp only
      rw [List.append_assoc]
      exact mapM_append_none middle
    | some new =>
      rw [middle] at pushed
      have whole : ((Decoder.mk coding .none).feed (fed ++ piece)).2.mapM Piece.strict?
          = some (t ++ unheld lines new) := by
        rw [fedMore, List.mapM_append, decoded, middle, unheld, ← List.append_assoc]
        rfl
      have meets := apart free new
      refine .inl ⟨_, pushed, ?_, rfl, _, rfl⟩
      by_cases hold : (unheld lines new).getLast? = some (.char '\r')
      · have split : unheld lines new = (unheld lines new).dropLast ++ [.char '\r'] := by
          obtain ⟨start, same⟩ := List.getLast?_eq_some_iff.mp hold
          rw [same, List.dropLast_concat]
        refine .reading (t := t ++ (unheld lines new).dropLast) rfl (by rw [fedMore]) ?_ ?_ ?_
        · rw [whole]
          simp only [hold, beq_self_eq_true, if_true, List.append_assoc, ← split]
        · simp only [hold, beq_self_eq_true, if_true]
          rw [Text.foldLineEnds_append (meets.imp_right (·.2)), ← folded, List.append_assoc]
        · simp [hold]
      · have release : ((unheld lines new).getLast? == some (.char '\r')) = false := by simpa using hold
        refine .reading (t := t ++ unheld lines new) rfl (by rw [fedMore]) ?_ ?_ ?_
        · rw [whole]
          simp only [release, Bool.false_eq_true, if_false, List.append_nil]
        · simp only [release, Bool.false_eq_true, if_false]
          rw [Text.foldLineEnds_append (meets.imp_right (·.1)), ← folded, List.append_assoc]
        · exact fun _ => free_append free hold

/-- Whatever is taken in, the reader still follows; or it refuses, and then no text has these bytes in it. -/
theorem push (follows : Follows coding fed out lines) (still : lines.ended = false) (piece : Bytes) :
    (∃ lines', lines.push? piece = some lines' ∧ Follows coding (fed ++ piece) out lines' ∧
      lines'.ended = piece.isEmpty ∧ ∃ more, lines'.ready = lines.ready ++ more) ∨
    lines.push? piece = none ∧
      ∀ rest, (piece = [] → rest = []) → coding.decode? (fed ++ piece ++ rest) = none := by
  by_cases empty : piece = []
  · subst empty
    simp only [List.append_nil]
    refine (follows.pushEnd still).imp id fun ⟨refused, malformed⟩ => ⟨refused, fun rest last => ?_⟩
    rw [last trivial, List.append_nil]
    exact malformed
  · have full : piece.isEmpty = false := by simpa using empty
    rw [full]
    exact (follows.pushPiece still empty).imp id fun ⟨refused, malformed⟩ =>
      ⟨refused, fun rest _ => malformed rest⟩

end Follows

end LineReader

end Pipework
