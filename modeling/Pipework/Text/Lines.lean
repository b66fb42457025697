import Pipework.Text.Coding

/-!
# Lines

Three ways to end a line are read as one: a carriage return, a line feed, or the two together. A
`LineReader` takes content in pieces, so it holds back a carriage return at the end of a piece until
it knows whether a line feed follows.
-/

namespace Pipework

/-- Cut a list after every element with a property; the last part may lack one. -/
def splitAfter {α : Type} (p : α → Bool) (l : List α) : List (List α) :=
  l.foldr (fun x parts =>
    if p x then [x] :: parts
    else match parts with
      | part :: rest =>
        (x :: part) :: rest
      | [] => [[x]]) []

namespace Text

/-- Read a rune of a line-ended text: every line end becomes one line feed. The flag says that the
rune before was a carriage return that is already counted. -/
def foldLineEnd (afterReturn : Bool) (r : Rune) : Bool × Text :=
  if r = .char '\r' then (true, [.char '\n'])
  else if r = .char '\n' then (false, if afterReturn then [] else [.char '\n'])
  else (false, [r])

/-- A text with every line end written as a line feed. -/
def foldLineEnds (t : Text) : Text :=
  (t.foldl (fun (after, out) r =>
    let (after, runes) := foldLineEnd after r
    (after, runes.reverseAux out)) (false, [])).2.reverse

/-- The text without its last line end, if it has one: a line feed and a carriage return before it. -/
def chomp (t : Text) : Text :=
  match t.reverse with
  | .char '\n' :: .char '\r' :: rest => rest.reverse
  | .char '\n' :: rest => rest.reverse
  | _ => t

/-- The first line with its line feed, and what follows it; `none` if there is no line feed. -/
def splitLine? (t : Text) : Option (Text × Text) :=
  match t.span (· != .char '\n') with
  | (line, feed :: rest) => some (line ++ [feed], rest)
  | (_, []) => none

end Text

/-- A reading of lines from content that comes in pieces. -/
structure LineReader where
  /-- Where decoding stands. -/
  decoder : Decoder
  /-- A carriage return ended what was decoded so far and is held back. -/
  heldReturn : Bool := false
  /-- Decoded text that no line was cut from yet. -/
  ready : Text := []
  /-- The content has ended. -/
  ended : Bool := false

namespace LineReader

/-- Take one piece of content; an empty piece is its end. `none` if it is not well formed. -/
def push? (lines : LineReader) (piece : Bytes) : Option LineReader := do
  let (decoder, pieces) := lines.decoder.feed piece
  let pieces := if piece.isEmpty then pieces ++ decoder.finish else pieces
  let decoded ← pieces.mapM Piece.strict?
  let decoded := if lines.heldReturn then Rune.char '\r' :: decoded else decoded
  let hold := !piece.isEmpty && decoded.getLast? == some (.char '\r')
  let decoded := if hold then decoded.dropLast else decoded
  return {
    decoder := if piece.isEmpty then ⟨decoder.coding, .none⟩ else decoder
    heldReturn := hold
    ready := lines.ready ++ Text.foldLineEnds decoded
    ended := piece.isEmpty }

/-- The next line that is complete, or the last one after the end. -/
def pop? (lines : LineReader) : Option (Text × LineReader) :=
  match Text.splitLine? lines.ready with
  | some (line, rest) => some (line, { lines with ready := rest })
  | none =>
    if lines.ended && !lines.ready.isEmpty then some (lines.ready, { lines with ready := [] }) else none

end LineReader

end Pipework
