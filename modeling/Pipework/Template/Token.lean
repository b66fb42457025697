import Pipework.Text.Literal

/-!
# Words of a template

A template is read as words, and a word as tokens: literal text, already freed of its quotes, and
markers, each bound to the value that was supplied for its name. The type `α` of values is open, for
reading a template never looks into a value.
-/

namespace Pipework.Template

/-- A part of a word. Positions count runes of the template from zero. -/
inductive Token (α : Type) where
  /-- Text. `quoted` says that it was flushed inside double quotes. -/
  | literal (text : Text) (pos : Nat) (quoted : Bool)
  /-- A marker with the value of its name. `quoted` says that it stands inside double quotes. -/
  | marker (name : Text) (value : α) (pos : Nat) (quoted : Bool)
deriving DecidableEq, Repr

namespace Token

variable {α : Type}

/-- Where a token starts. -/
def pos : Token α → Nat
  | literal _ p _ => p
  | marker _ _ p _ => p

/-- Whether a token is quoted. -/
def quoted : Token α → Bool
  | literal _ _ q => q
  | marker _ _ _ q => q

/-- The name of a marker. -/
def name? : Token α → Option Text
  | literal .. => none
  | marker name .. => some name

/-- The token with another value. -/
def map {β : Type} (f : α → β) : Token α → Token β
  | literal text pos quoted => literal text pos quoted
  | marker name value pos quoted => marker name (f value) pos quoted

end Token

/-- A word: its position and its tokens. -/
structure Word (α : Type) where
  pos : Nat
  tokens : List (Token α)
deriving DecidableEq, Repr

/-- The names of a word's markers, in order. -/
def Word.markers {α : Type} (w : Word α) : List Text := w.tokens.filterMap Token.name?

/-- The word with other values. -/
def Word.map {α β : Type} (f : α → β) (w : Word α) : Word β := ⟨w.pos, w.tokens.map (Token.map f)⟩

/-- Why a template cannot be read. -/
inductive Fault where
  | trailingBackslash
  | openSingleQuote
  | openDoubleQuote
  /-- A dollar sign that no name follows. -/
  | bareMarker
  | openBrace
  | invalidName (name : Text)
  | unbound (name : Text)
  /-- A fault that the caller words itself. -/
  | other (message : Text)
deriving DecidableEq, Repr

/-- A fault in words. -/
def Fault.message : Fault → Text
  | trailingBackslash => "Trailing backslash"
  | openSingleQuote => "Unterminated single quote"
  | openDoubleQuote => "Unterminated double quote"
  | bareMarker => "Bare '$' (escape it as \\$ or quote it with '$')"
  | openBrace => Text.ofString "Unterminated '$\x7b'"
  | invalidName name => "Invalid interpolation name " ++ name.quoted
  | unbound name => "No value supplied for $" ++ name
  | other message => message

/-- A fault of a template, with its position where it has one. -/
structure SyntaxError where
  fault : Fault
  template : Text := []
  position : Option Int := none
deriving DecidableEq, Repr

/-- A syntax error in words. -/
def SyntaxError.message (e : SyntaxError) : Text :=
  match e.position with
  | some p => e.fault.message ++ " at pos " ++ Text.ofInt p
  | none => e.fault.message

end Pipework.Template
