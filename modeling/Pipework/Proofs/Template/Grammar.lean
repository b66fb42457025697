import Pipework.Template.Lexer

/-!
# The grammar of templates

A template is a row of fields, one separator between two of them. A field is a row of parts, and a
part between double quotes is a row of parts of its own. The trees below are the derivations of this
grammar: each says which text it stands for, when it is allowed before a text that follows it, and
what it reads as. Nothing here mentions the reader.
-/

namespace Pipework.Template

variable {α : Type}

/-- What a word is read as: runes of text, and markers between them. -/
inductive Atom (α : Type) where
  | rune (r : Rune)
  /-- A marker with its value. `quoted` says that it stands between double quotes. -/
  | marker (name : Text) (value : α) (quoted : Bool)
deriving DecidableEq, Repr

/-- A token, without its place and with its text taken apart. -/
def Token.atoms : Token α → List (Atom α)
  | .literal text _ _ => text.map .rune
  | .marker name value _ quoted => [.marker name value quoted]

/-- What a word says: its text up to the first marker, that marker, the text up to the next. -/
def Word.atoms (w : Word α) : List (Atom α) := w.tokens.flatMap Token.atoms

/-! ## Rows -/

/-- The text of a row of parts. -/
def renderAll {β : Type} (render : β → Text) (parts : List β) : Text := parts.flatMap render

/-- Each part of a row is allowed before the text of the later ones and what follows the row. -/
def AllAllowed {β : Type} (render : β → Text) (Allowed : β → Text → Prop) : List β → Text → Prop
  | [], _ => True
  | part :: parts, rest =>
    Allowed part (renderAll render parts ++ rest) ∧ AllAllowed render Allowed parts rest

/-- Each part of an allowed row is allowed before some text. -/
theorem AllAllowed.of_mem {β : Type} {render : β → Text} {Allowed : β → Text → Prop} {parts : List β}
    {rest : Text} (allowed : AllAllowed render Allowed parts rest) {part : β} (member : part ∈ parts) :
    ∃ after, Allowed part after := by
  induction parts with
  | nil => cases member
  | cons first parts ih =>
    obtain ⟨here, later⟩ := allowed
    cases member with
    | head => exact ⟨_, here⟩
    | tail _ inRest => exact ih later inRest

/-! ## Markers -/

/-- A letter or underscore, and after it letters, numerals and underscores. -/
inductive IsBareName : Text → Prop
  | intro (r : Rune) (run : Text) (starts : Text.startsName r = true)
      (continues : ∀ c ∈ run, Text.continuesName c = true) : IsBareName (r :: run)

theorem isBareName_cons {r : Rune} {run : Text} :
    IsBareName (r :: run) ↔ Text.startsName r = true ∧ ∀ c ∈ run, Text.continuesName c = true := by
  constructor
  · rintro ⟨_, _, starts, continues⟩
    exact ⟨starts, continues⟩
  · rintro ⟨starts, continues⟩
    exact .intro r run starts continues

instance : DecidablePred IsBareName
  | [] => .isFalse nofun
  | _ :: _ => decidable_of_iff _ isBareName_cons.symm

/-- A bare name grows by what continues it. -/
theorem IsBareName.snoc {name : Text} (bareName : IsBareName name) {r : Rune}
    (continues : Text.continuesName r = true) : IsBareName (name ++ [r]) := by
  cases bareName with
  | intro first run starts all =>
    refine .intro first (run ++ [r]) starts fun c member => ?_
    rcases List.mem_append.mp member with old | new
    · exact all c old
    · rw [List.mem_singleton.mp new]
      exact continues

/-- A marker: a dollar sign and a name, with or without braces. -/
structure Marker (α : Type) where
  braced : Bool
  name : Text
  value : α
deriving Repr

namespace Marker

def render (m : Marker α) : Text :=
  if m.braced then .char '$' :: .char '\x7b' :: (m.name ++ [.char '\x7d']) else .char '$' :: m.name

/-- A braced name is an identifier and ends at the first closing brace. A bare name is as long as it
can be: what follows does not continue it. Either way the name is bound. -/
structure Allowed (lookup : Text → Option α) (m : Marker α) (rest : Text) : Prop where
  bound : lookup m.name = some m.value
  identifier : m.braced = true → .char '\x7d' ∉ m.name ∧ Text.isIdentifier m.name = true
  bareName : m.braced = false → IsBareName m.name ∧ ∀ r ∈ rest.head?, Text.continuesName r = false

end Marker

/-! ## Between double quotes -/

/-- A part of what stands between double quotes. -/
inductive Inner (α : Type) where
  /-- A rune that stands for itself. -/
  | plain (r : Rune)
  /-- A backslash and a rune that it frees of its meaning. -/
  | escaped (r : Rune)
  /-- A backslash and a line feed. -/
  | joined
  /-- A backslash that keeps its meaning, and the rune after it. -/
  | kept (r : Rune)
  | marker (m : Marker α)
deriving Repr

namespace Inner

def render : Inner α → Text
  | plain r => [r]
  | escaped r => [.char '\\', r]
  | joined => [.char '\\', .char '\n']
  | kept r => [.char '\\', r]
  | marker m => m.render

def Allowed (lookup : Text → Option α) : Inner α → Text → Prop
  | plain r, _ => r ≠ .char '"' ∧ r ≠ .char '\\' ∧ r ≠ .char '$'
  | escaped r, _ => isDoubleEscapable r = true
  | joined, _ => True
  | kept r, _ => r ≠ .char '\n' ∧ isDoubleEscapable r = false
  | marker m, rest => m.Allowed lookup rest

def atoms : Inner α → List (Atom α)
  | plain r => [.rune r]
  | escaped r => [.rune r]
  | joined => []
  | kept r => [.rune (.char '\\'), .rune r]
  | marker m => [.marker m.name m.value true]

end Inner

/-! ## Outside quotes -/

/-- A part of a field. -/
inductive Piece (α : Type) where
  /-- A rune that stands for itself. -/
  | plain (r : Rune)
  /-- A backslash and a rune other than a line feed. -/
  | escaped (r : Rune)
  /-- A backslash and a line feed. -/
  | joined
  /-- Text between apostrophes. -/
  | single (t : Text)
  /-- Parts between double quotes. -/
  | double (parts : List (Inner α))
  | marker (m : Marker α)
deriving Repr

namespace Piece

def render : Piece α → Text
  | plain r => [r]
  | escaped r => [.char '\\', r]
  | joined => [.char '\\', .char '\n']
  | single t => .char '\'' :: (t ++ [.char '\''])
  | double parts => .char '"' :: (renderAll Inner.render parts ++ [.char '"'])
  | marker m => m.render

def Allowed (lookup : Text → Option α) : Piece α → Text → Prop
  | plain r, _ => isSeparator r = false ∧ r ≠ .char '\\' ∧ r ≠ .char '\'' ∧ r ≠ .char '"' ∧
      r ≠ .char '$'
  | escaped r, _ => r ≠ .char '\n'
  | joined, _ => True
  | single t, _ => .char '\'' ∉ t
  | double parts, rest => AllAllowed Inner.render (Inner.Allowed lookup) parts (.char '"' :: rest)
  | marker m, rest => m.Allowed lookup rest

def atoms : Piece α → List (Atom α)
  | plain r => [.rune r]
  | escaped r => [.rune r]
  | joined => []
  | single t => t.map .rune
  | double parts => parts.flatMap Inner.atoms
  | marker m => [.marker m.name m.value false]

/-- Whether the part makes its field a word. Only two joined lines do not; quotes around nothing
do. -/
def shows : Piece α → Bool
  | joined => false
  | _ => true

end Piece

/-! ## Templates -/

/-- What a field reads as. A field that shows nothing, an empty one among them, is no word. -/
def fieldWord? (parts : List (Piece α)) : Option (List (Atom α)) :=
  if parts.any Piece.shows then some (parts.flatMap Piece.atoms) else none

/-- The derivation of a template: a row of fields, one separator between two of them. -/
inductive Layout (α : Type) where
  | last (field : List (Piece α))
  | more (field : List (Piece α)) (separator : Rune) (rest : Layout α)
deriving Repr

namespace Layout

def render : Layout α → Text
  | last field => renderAll Piece.render field
  | more field separator rest => renderAll Piece.render field ++ separator :: rest.render

def Allowed (lookup : Text → Option α) : Layout α → Prop
  | last field => AllAllowed Piece.render (Piece.Allowed lookup) field []
  | more field separator rest =>
    AllAllowed Piece.render (Piece.Allowed lookup) field (separator :: rest.render) ∧
      isSeparator separator = true ∧ rest.Allowed lookup

/-- The words of the fields, in order. -/
def words : Layout α → List (List (Atom α))
  | last field => (fieldWord? field).toList
  | more field _ rest => (fieldWord? field).toList ++ rest.words

/-- Two joined lines make no word, quotes around nothing make one. -/
example : (Layout.more [.joined] (.char ' ') (.last [.single []]) : Layout α).words = [[]] := rfl

end Layout

end Pipework.Template
