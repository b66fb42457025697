import Pipework.Template.Lexer
import Pipework.Value.Sequence

/-!
# From words to arguments

Each token of a word stands for some texts: literal text and scalars for one, an unquoted sequence for
one per element, a quoted sequence for its elements joined by spaces. A word becomes every combination
of one text per token, the leftmost token varying slowest. Nothing is ever split: a text of a value goes
into its argument as it is.

A sequence that can be gone through once is gone through once per expansion, so that it gives the same
elements wherever it stands.
-/

namespace Pipework

/-- A word that became other than one argument. -/
structure ExpansionNote where
  pos : Nat
  count : Nat
deriving DecidableEq, Repr

/-- The state of an expansion. -/
structure Expansion where
  memory : Memory
  /-- The texts of the objects that were gone through, by number. -/
  gathered : List (Nat × List Text) := []
  /-- The number of an object for each time that one was gone through, in order. -/
  visits : List Nat := []
  notes : List ExpansionNote := []

/-- A step of an expansion; what it did to the state stays done when it fails. -/
abbrev Expanding := ExceptT Failure (StateM Expansion)

namespace Expansion

/-- Go through an object, as far as it has elements left. -/
def goThrough (ref : ObjectRef) : Expanding (List Value) := do
  let s ← get
  let (items, memory) := s.memory.iterate (.object ref)
  set { s with memory, visits := s.visits ++ [ref.id] }
  ExceptT.mk (pure items)

/-- The texts of a sequence's elements. -/
def elements : Value → Expanding (List Text)
  | .object ref => do
    match (← get).gathered.find? (·.1 == ref.id) with
    | some (_, texts) => return texts
    | none =>
      let items ← goThrough ref
      let texts := items.map (Value.argument (← get).memory)
      modify fun s => { s with gathered := (ref.id, texts) :: s.gathered }
      return texts
  | v => do
    let memory := (← get).memory
    let items ← ExceptT.mk (pure (memory.iterate v).1)
    return items.map (Value.argument memory)

/-- The texts that one token stands for. -/
def tokenTexts : Template.Token Value → Expanding (List Text)
  | .literal text _ _ => return [text]
  | .marker _ value _ quoted => do
    match value.shape with
    | .error e => throw (e.failure (← get).memory)
    | .ok .scalar => return [value.argument (← get).memory]
    | .ok .sequence =>
      let texts ← elements value
      return if quoted then [Text.join [.char ' '] texts] else texts

/-- Every way to continue one of the beginnings with one of the texts. -/
def combine (beginnings texts : List Text) : List Text :=
  beginnings.flatMap fun b => texts.map (b ++ ·)

/-- The arguments of one word. -/
def expandWord (w : Template.Word Value) : Expanding (List Text) := do
  let sites ← w.tokens.mapM tokenTexts
  return sites.foldl combine [[]]

/-- The arguments of some words, in order. -/
def expandWords : List (Template.Word Value) → Expanding (List Text)
  | [] => return []
  | w :: rest => do
    let texts ← expandWord w
    if texts.length ≠ 1 then
      modify fun s => { s with notes := s.notes ++ [⟨w.pos, texts.length⟩] }
    return texts ++ (← expandWords rest)

end Expansion

/-- The outcome of expanding some words: the arguments or the failure, what is left in memory, and the
notes on words that became other than one argument. -/
structure ExpansionResult where
  arguments : Except Failure (List Text)
  memory : Memory
  notes : List ExpansionNote

/-- Expand some words. -/
def expand (words : List (Template.Word Value)) (memory : Memory) : ExpansionResult :=
  let (arguments, s) := (Expansion.expandWords words).run { memory }
  ⟨arguments, s.memory, s.notes⟩

/-- A note in words. -/
def ExpansionNote.text (n : ExpansionNote) : Text :=
  "Word at pos " ++ Text.ofNat n.pos ++ " expanded to " ++ Text.ofNat n.count ++ " arguments"

end Pipework
