import Pipework.Error
import Pipework.Value.Basic

/-!
# The memory of objects

Every object with a state of its own has a cell. Cells are only added, so the number of a cell is the
object's identity for good. Beside the cells stand the fields that the caller gave to objects.
-/

namespace Pipework

/-- What one read of an object answers. -/
inductive Chunk where
  | text (t : Text)
  | bytes (b : Bytes)
deriving DecidableEq, Repr

/-- The state of an object. -/
inductive Cell where
  | byteArray (content : Bytes)
  | byteStream (content : Bytes) (position : Nat)
  | textStream (content : Text) (position : Nat)
  /-- What was written so far, and the number of the write that fails with its error. -/
  | sink (written : List Bytes) (refusal : Option (Nat × SystemError))
  | textSink (written : List Text)
  /-- What is still to be handed out, and the error that an absent value stands for. -/
  | source (chunks : List Value) (failure : SystemError := .plain "read failed")
  | iterator (rest : List Item)

/-- The kind of object that a cell belongs to. -/
def Cell.kind : Cell → ObjectKind
  | byteArray _ => .byteArray
  | byteStream .. => .byteStream
  | textStream .. => .textStream
  | sink .. => .sink
  | textSink _ => .textSink
  | source .. => .source
  | iterator _ => .iterator

/-- The state of all objects. -/
structure Memory where
  /-- The cells, by number. -/
  cells : List Cell := []
  /-- The fields that the caller gave to objects, by object and name. -/
  fields : List ((Label × Text) × Item) := []

namespace Memory

instance : Inhabited Memory := ⟨{}⟩

/-- The state of an object. -/
def get? (m : Memory) (ref : ObjectRef) : Option Cell := m.cells[ref.id]?

/-- The memory with one object's state replaced. -/
def put (m : Memory) (ref : ObjectRef) (cell : Cell) : Memory :=
  { m with cells := m.cells.set ref.id cell }

/-- A new object. -/
def add (m : Memory) (cell : Cell) : ObjectRef × Memory :=
  (⟨m.cells.length, cell.kind⟩, { m with cells := m.cells ++ [cell] })

/-- A field that the caller gave to an object. -/
def field? (m : Memory) (object : Label) (name : Text) : Option Item :=
  (m.fields.find? (·.1 == (object, name))).map (·.2)

/-- The memory without a field of an object. -/
def dropField (m : Memory) (object : Label) (name : Text) : Memory :=
  { m with fields := m.fields.filter (·.1 != (object, name)) }

/-- The memory with a field of an object set. -/
def putField (m : Memory) (object : Label) (name : Text) (i : Item) : Memory :=
  { m with fields := ((object, name), i) :: (m.dropField object name).fields }

/-- The items that an object still has to hand out one by one. -/
def restOf (m : Memory) (ref : ObjectRef) : List Item :=
  match m.get? ref with
  | some (.iterator rest) => rest
  | _ => []

/-- The content of a byte array; other objects have none. -/
def bytesOf (m : Memory) (ref : ObjectRef) : Bytes :=
  match m.get? ref with
  | some (.byteArray content) => content
  | _ => []

/-- Overwrite a content from a position; a position past the end is taken for the end. -/
def splice {α : Type} (content : List α) (position : Nat) (piece : List α) : List α :=
  content.take position ++ piece ++ content.drop (position + piece.length)

/-- Overwrite a content from a position, with filling in front of a position past the end. -/
def overwrite {α : Type} (fill : α) (content : List α) (position : Nat) (piece : List α) : List α :=
  if piece.isEmpty then content
  else content.take position ++ List.replicate (position - content.length) fill ++ piece
    ++ content.drop (position + piece.length)

end Memory

/-- The bytes of a value that is a content. -/
def Value.content? (m : Memory) : Value → Option Bytes
  | .bytes b | .view b => some b
  | .object ref => if ref.kind = .byteArray then some (m.bytesOf ref) else Option.none
  | _ => Option.none

/-- What a source hands out for a value: a text, some bytes, or none where the value stands for nothing.
An absent value is a failure to read, and any other value no content. -/
def Chunk.ofValue (m : Memory) (failure : SystemError) (v : Value) : Except Failure Chunk :=
  match v, v.content? m with
  | .none, _ => .error (.system failure)
  | .str t, _ => .ok (.text t)
  | _, some b => .ok (.bytes b)
  | v, none => if v.isVoid then .ok (.bytes []) else .error .wrongType

end Pipework

/-!
## Reading and writing objects

What an object of the memory answers to one read or one write, and its state afterwards.
-/

namespace Pipework.Memory

/-- The type name of an object without the operation, as a failure. -/
def lacks (ref : ObjectRef) (operation : String) : Failure :=
  .lacking ref.kind.label operation

/-- Write bytes to an object. -/
def writeBytes (m : Memory) (ref : ObjectRef) (data : Bytes) : Except Failure Unit × Memory :=
  match m.get? ref with
  | some (.byteArray content) => (.ok (), m.put ref (.byteArray (content ++ data)))
  | some (.byteStream content position) =>
    (.ok (), m.put ref (.byteStream (overwrite 0 content position data) (position + data.length)))
  | some (.sink written refusal) =>
    match refusal.filter (·.1 == written.length) with
    | some (_, e) => (.error (.system e), m)
    | none => (.ok (), m.put ref (.sink (written ++ [data]) refusal))
  | some (.textStream ..) | some (.textSink _) => (.error .wrongType, m)
  | _ => (.error (lacks ref "write"), m)

/-- Write text to an object. -/
def writeText (m : Memory) (ref : ObjectRef) (t : Text) : Except Failure Unit × Memory :=
  match m.get? ref with
  | some (.textStream content position) =>
    (.ok (), m.put ref
      (.textStream (overwrite (.char '\x00') content position t) (position + t.length)))
  | some (.textSink written) => (.ok (), m.put ref (.textSink (written ++ [t])))
  | _ => (.error .wrongType, m)

/-- The first elements of a list, at most so many; below zero means all. -/
def upTo {α : Type} (most : Int) (l : List α) : List α := if most < 0 then l else l.take most.toNat

/-- Read once from an object, at most `most` bytes or runes; a source answers its next chunk, whatever
its size. -/
def readChunk (m : Memory) (ref : ObjectRef) (most : Int) : Except Failure Chunk × Memory :=
  match m.get? ref with
  | some (.byteStream content position) =>
    let data := upTo most (content.drop position)
    (.ok (.bytes data), m.put ref (.byteStream content (position + data.length)))
  | some (.textStream content position) =>
    let data := upTo most (content.drop position)
    (.ok (.text data), m.put ref (.textStream content (position + data.length)))
  | some (.source [] _) => (.ok (.bytes []), m)
  | some (.source (v :: rest) failure) => (Chunk.ofValue m failure v, m.put ref (.source rest failure))
  | some (.textSink _) => (.error (.unsupported "read"), m)
  | _ => (.error (lacks ref "read"), m)

/-- A bound on how many reads of an object can answer something. -/
def readsLeft (m : Memory) (ref : ObjectRef) : Nat :=
  match m.get? ref with
  | some (.byteStream content position) => content.length - position
  | some (.textStream content position) => content.length - position
  | some (.source chunks _) => chunks.length
  | _ => 0

end Pipework.Memory
