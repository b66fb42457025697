import Pipework.Template.Token
import Pipework.Text.Letter

/-!
# Reading a template

The reader takes one rune at a time, so that reading a template is a fold, and reading two parts one
after the other is reading the whole. Its `Mode` says which quoting applies to the next rune:

* outside quotes, blanks end a word, a backslash takes the next rune as it is, and a backslash before a
  line feed joins two lines;
* between apostrophes everything stands for itself;
* between double quotes nothing splits, markers count, and a backslash keeps its meaning only before a
  dollar sign, a double quote, a backslash or a line feed.

Text is gathered across quotes and becomes a token when a marker, a closing double quote or the end of
the word follows it.
-/

namespace Pipework.Template

/-- Runes that end a word outside quotes. -/
def isSeparator (r : Rune) : Bool := r = .char ' ' || r = .char '\t' || r = .char '\n'

/-- Runes that a backslash frees of their meaning inside double quotes. -/
def isDoubleEscapable (r : Rune) : Bool := r = .char '$' || r = .char '"' || r = .char '\\'

/-- Which rules apply to the next rune. A marker remembers where it starts and, inside double quotes,
where those were opened. -/
inductive Mode where
  /-- Between words. -/
  | blank
  /-- In a word, outside quotes. -/
  | bare
  /-- After a backslash outside quotes. -/
  | escaped
  /-- Between apostrophes opened at a position. -/
  | single (opened : Nat)
  /-- Between double quotes opened at a position. -/
  | double (opened : Nat)
  /-- After a backslash between double quotes. -/
  | doubleEscaped (opened : Nat)
  /-- After a dollar sign. -/
  | marker (start : Nat) (within : Option Nat)
  /-- In a bare name. -/
  | name (start : Nat) (within : Option Nat) (soFar : Text)
  /-- In a braced name. -/
  | braced (start : Nat) (within : Option Nat) (soFar : Text)
deriving DecidableEq, Repr

/-- The word that is being read. -/
structure Draft (α : Type) where
  pos : Nat
  tokens : List (Token α) := []
  /-- Text that is no token yet, and where it started. -/
  pending : Option (Nat × Text) := none
  /-- Quotes were opened in this word. -/
  hasQuotes : Bool := false
deriving DecidableEq, Repr

namespace Draft

variable {α : Type}

/-- Add one rune, read at a position, to the pending text. -/
def push (d : Draft α) (pos : Nat) (r : Rune) : Draft α :=
  match d.pending with
  | none => { d with pending := some (pos, [r]) }
  | some (start, text) => { d with pending := some (start, text ++ [r]) }

/-- Make the pending text a token. -/
def flush (d : Draft α) (quoted : Bool) : Draft α :=
  match d.pending with
  | none => d
  | some (start, text) => { d with tokens := d.tokens ++ [.literal text start quoted], pending := none }

/-- Add a marker. -/
def mark (d : Draft α) (name : Text) (value : α) (pos : Nat) (quoted : Bool) : Draft α :=
  { d with tokens := d.tokens ++ [.marker name value pos quoted] }

/-- The finished word. One without tokens is no word, unless it has quotes: then it is empty text. -/
def finish? (d : Draft α) : Option (Word α) :=
  let d := d.flush false
  if !d.tokens.isEmpty then some ⟨d.pos, d.tokens⟩
  else if d.hasQuotes then some ⟨d.pos, [.literal [] d.pos true]⟩
  else none

end Draft

/-- Where reading stands. -/
structure State (α : Type) where
  pos : Nat := 0
  mode : Mode := .blank
  draft : Draft α := ⟨0, [], none, false⟩
  words : List (Word α) := []
deriving DecidableEq, Repr

namespace State

variable {α : Type}

/-- End the word that is being read. -/
def endWord (s : State α) : State α :=
  { s with words := s.words ++ s.draft.finish?.toList, mode := .blank }

/-- One rune outside quotes, inside a word. -/
def stepBare (s : State α) (r : Rune) : State α :=
  if isSeparator r then s.endWord
  else if r = .char '\\' then { s with mode := .escaped }
  else if r = .char '\'' then
    { s with mode := .single s.pos, draft := { s.draft with hasQuotes := true } }
  else if r = .char '"' then
    { s with mode := .double s.pos, draft := { s.draft with hasQuotes := true } }
  else if r = .char '$' then { s with mode := .marker s.pos none, draft := s.draft.flush false }
  else { s with mode := .bare, draft := s.draft.push s.pos r }

/-- One rune between double quotes. -/
def stepDouble (s : State α) (opened : Nat) (r : Rune) : State α :=
  if r = .char '"' then { s with mode := .bare, draft := s.draft.flush true }
  else if r = .char '\\' then { s with mode := .doubleEscaped opened }
  else if r = .char '$' then
    { s with mode := .marker s.pos (some opened), draft := s.draft.flush true }
  else { s with mode := .double opened, draft := s.draft.push s.pos r }

/-- One rune of the text that a marker stands in. -/
def stepAround (s : State α) (within : Option Nat) (r : Rune) : State α :=
  match within with
  | none => s.stepBare r
  | some opened => s.stepDouble opened r

/-- The mode of the text that a marker stands in. -/
def modeAround : Option Nat → Mode
  | none => .bare
  | some opened => .double opened

/-- Bind a marker's name and go back to the text around it. -/
def bind (s : State α) (lookup : Text → Option α) (start : Nat) (within : Option Nat) (name : Text) :
    Except (Fault × Nat) (State α) :=
  match lookup name with
  | none => .error (.unbound name, start)
  | some value =>
    .ok { s with mode := modeAround within, draft := s.draft.mark name value start within.isSome }

/-- Read one rune, without counting it. -/
def stepMode (s : State α) (lookup : Text → Option α) (r : Rune) : Except (Fault × Nat) (State α) :=
  match s.mode with
  | .blank =>
    if isSeparator r then .ok s else .ok (({ s with draft := ⟨s.pos, [], none, false⟩ } : State α).stepBare r)
  | .bare => .ok (s.stepBare r)
  | .escaped =>
    if r = .char '\n' then .ok { s with mode := .bare }
    else .ok { s with mode := .bare, draft := s.draft.push s.pos r }
  | .single opened =>
    if r = .char '\'' then .ok { s with mode := .bare }
    else .ok { s with mode := .single opened, draft := s.draft.push s.pos r }
  | .double opened => .ok (s.stepDouble opened r)
  | .doubleEscaped opened =>
    if r = .char '\n' then .ok { s with mode := .double opened }
    else if isDoubleEscapable r then
      .ok { s with mode := .double opened, draft := s.draft.push s.pos r }
    else
      .ok { s with
        mode := .double opened
        draft := (s.draft.push (s.pos - 1) (.char '\\')).push s.pos r }
  | .marker start within =>
    if r = .char '\x7b' then .ok { s with mode := .braced start within [] }
    else if Text.startsName r then .ok { s with mode := .name start within [r] }
    else .error (.bareMarker, start)
  | .name start within soFar =>
    if Text.continuesName r then .ok { s with mode := .name start within (soFar ++ [r]) }
    else (s.bind lookup start within soFar).map fun s => s.stepAround within r
  | .braced start within soFar =>
    if r = .char '\x7d' then
      if Text.isIdentifier soFar then s.bind lookup start within soFar
      else .error (.invalidName soFar, start)
    else .ok { s with mode := .braced start within (soFar ++ [r]) }

/-- Read one rune. -/
def step (lookup : Text → Option α) (s : State α) (r : Rune) : Except (Fault × Nat) (State α) :=
  (s.stepMode lookup r).map fun s => { s with pos := s.pos + 1 }

/-- Read a text. -/
def run (lookup : Text → Option α) (s : State α) (t : Text) : Except (Fault × Nat) (State α) :=
  t.foldlM (step lookup) s

/-- The words, when nothing follows. -/
def finish (lookup : Text → Option α) (s : State α) : Except (Fault × Nat) (List (Word α)) :=
  match s.mode with
  | .blank => .ok s.words
  | .bare => .ok s.endWord.words
  | .escaped => .error (.trailingBackslash, s.pos - 1)
  | .single opened => .error (.openSingleQuote, opened)
  | .double opened => .error (.openDoubleQuote, opened)
  | .doubleEscaped opened => .error (.openDoubleQuote, opened)
  | .marker start _ => .error (.bareMarker, start)
  | .name start within soFar =>
    match s.bind lookup start within soFar, within with
    | .error e, _ => .error e
    | .ok s, none => .ok s.endWord.words
    | .ok _, some opened => .error (.openDoubleQuote, opened)
  | .braced start _ _ => .error (.openBrace, start)

end State

/-- The words of a template, its markers bound by `lookup`; or the first fault and its position. -/
def words? {α : Type} (lookup : Text → Option α) (template : Text) :
    Except (Fault × Nat) (List (Word α)) := do
  let s ← ({} : State α).run lookup template
  s.finish lookup

/-- Values by name. -/
abbrev Bindings (α : Type) := List (Text × α)

/-- The value of a name. -/
def Bindings.get? {α : Type} (bindings : Bindings α) (name : Text) : Option α :=
  (bindings.find? fun (key, _) => key == name).map (·.2)

/-- The words of a template under some bindings. -/
def tokenize {α : Type} (template : Text) (bindings : Bindings α) :
    Except SyntaxError (List (Word α)) :=
  match words? bindings.get? template with
  | .ok words => .ok words
  | .error (fault, pos) => .error ⟨fault, template, some (pos : Int)⟩

end Pipework.Template
