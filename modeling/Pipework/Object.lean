import Pipework.Text.Literal

/-!
# Objects

Everything that a caller hands over is an object: besides what it is, it matters which one it is. A
`Label` tells objects apart that are otherwise the same. Objects that have a state of their own are named
by a reference; what such an object holds is kept in the `Memory` of the system.
-/

namespace Pipework

/-- Which object something is. -/
inductive Label where
  /-- An object that was made by itself, by its number. -/
  | own (number : Nat)
  /-- A part that was made along with its whole, by its name in it. -/
  | part (whole : Label) (name : Text)
  /-- An object that there is only one of, by its name. -/
  | constant (name : Text)
  /-- A text that was written for a number. It is an object of its own, also where it is so short that
  texts like it exist only once. -/
  | numeral (whole : Label) (name : Text)
deriving DecidableEq, Repr

/-- Whether an object is one of its own whatever it is. -/
def Label.isApart : Label → Bool
  | .numeral .. => true
  | _ => false

/-- Something with the label of the object that it is. -/
structure Labelled (α : Type) where
  label : Label
  it : α
deriving DecidableEq, Repr

/-- The kinds of objects that hold a state. -/
inductive ObjectKind where
  /-- Bytes that grow in place. -/
  | byteArray
  /-- Bytes in memory with a position for reading and writing. -/
  | byteStream
  /-- Text in memory with a position for reading and writing. -/
  | textStream
  /-- A writer that takes bytes. -/
  | sink
  /-- A writer that takes text. -/
  | textSink
  /-- A reader that hands out ready chunks. -/
  | source
  /-- A sequence that can be gone through once. -/
  | iterator
deriving DecidableEq, Repr

/-- The name of a kind in messages. -/
def ObjectKind.label : ObjectKind → String
  | byteArray => "bytearray"
  | byteStream => "BytesIO"
  | textStream => "StringIO"
  | sink => "Sink"
  | textSink => "TextSink"
  | source => "Source"
  | iterator => "Gen"

/-- A reference to an object. -/
structure ObjectRef where
  id : Nat
  kind : ObjectKind
deriving DecidableEq, Repr

/-- What a stream is fed from or drained into. -/
inductive Buffer where
  /-- A text, to be encoded. -/
  | text (t : Text)
  /-- A fixed content. -/
  | bytes (b : Bytes)
  /-- A fixed content seen through a view. -/
  | view (b : Bytes)
  /-- An object of the memory. -/
  | object (ref : ObjectRef)
  /-- A value that can be neither read nor written, by the name of its type. -/
  | unusable (label : Text)
deriving DecidableEq, Repr

namespace Buffer

/-- The type name of a buffer in messages. -/
def label : Buffer → Text
  | text _ => "str"
  | bytes _ => "bytes"
  | view _ => "memoryview"
  | object ref => ref.kind.label
  | unusable label => label

end Buffer

/-- Why an object that promises a descriptor has none. -/
inductive NoDescriptor where
  | system
  | value
deriving DecidableEq, Repr

end Pipework
