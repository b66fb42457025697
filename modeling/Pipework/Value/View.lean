import Pipework.Value.Sequence

/-!
# Looking into values

Nodes, redirects, targets and commands can be looked into field by field, and collections by the places
of their elements. What is found is mostly an object that is held there; some elements are made by the
look. Commands, nodes, redirects and targets can never be changed.
-/

namespace Pipework

/-- What a look finds. -/
inductive View where
  /-- An object that was there. -/
  | held (i : Item)
  /-- An object that is made by the look. -/
  | made (v : Value)

/-- What can be looked for. -/
inductive Field where
  /-- The redirects of a node. -/
  | redirects
  /-- One stream of some redirects. -/
  | stream (s : Stream)
  | command
  | left
  | right
  | members
  | path
  | append
  | buffer
  | graph
  /-- The descriptor of the caller that a target leads to. -/
  | descriptor
  | arguments
  | program
  | ignoresStatus
  /-- The element at a place, counted from zero. -/
  | place (n : Nat)
  /-- A field that only the caller can have given. -/
  | other
deriving DecidableEq, Repr

/-- The fields that have one name everywhere. -/
def Field.table : List (Text × Field) :=
  [("redirects", redirects), ("command", command), ("members", members), ("path", path),
    ("append", append), ("buffer", buffer), ("graph", graph), ("stream", descriptor),
    ("args", arguments), ("program", program), ("ignores_status", ignoresStatus)]

/-- What a name means, where some fields have names that the caller gives them. -/
def Field.ofName (names : List (Text × Field)) (name : Text) : Field :=
  match name.toNat?, Stream.ofName? name with
  | some n, _ => .place n
  | none, some s => .stream s
  | none, none => (List.lookup name (names ++ table)).getD .other

/-- One name on the way into a value, and what it means. -/
structure Step where
  name : Text
  field : Field
deriving DecidableEq, Repr

/-- The step of a name. -/
def Step.ofName (names : List (Text × Field)) (name : Text) : Step :=
  ⟨name, Field.ofName names name⟩

namespace View

/-- The arguments of a command, which are there from its start. -/
def argumentsOf (label : Label) (c : Command) (words : List Label) : Item :=
  ⟨.part label "arguments", .tuple (c.items words)⟩

/-- The redirects of a node. -/
def redirectsOf (g : Graph) : Item := ⟨g.redirects.label, .redirects g.redirects⟩

/-- A redirect that may be absent. -/
def ofTarget? : Option (Labelled Target) → View
  | some t => held (Target.toItem t)
  | none => made .none

/-- A field of a node. -/
def ofGraph? : Graph → Field → Option View
  | g, .redirects => some (held (redirectsOf g))
  | .leaf _ c _, .command => some (held c)
  | .pipe _ l _ _, .left => some (held l.toItem)
  | .pipe _ _ r _, .right => some (held r.toItem)
  | .group _ label ms _, .members => some (held ⟨label, .tuple (ms.map Graph.toItem)⟩)
  | _, _ => none

/-- A field of a redirect target. -/
def ofTargetField? : Labelled Target → Field → Option View
  | ⟨_, .file path _⟩, .path => some (held path)
  | ⟨_, .file _ append⟩, .append => some (made (.bool append))
  | ⟨_, .buffer content⟩, .buffer => some (held content)
  | ⟨_, .graph g⟩, .graph => some (held g.toItem)
  | ⟨_, .stream content⟩, .descriptor => some (held content)
  | _, _ => none

/-- The items that a value holds at places. -/
def heldItems? : Value → Option (List Item)
  | .list items | .tuple items => some items
  | .command c words => some (c.items words)
  | _ => none

/-- Go through a value: each value that it gives, with its label where it was there before, and the
memory after they were taken. -/
def goThrough (m : Memory) (v : Value) : Except Failure (List (Option Label × Value)) × Memory :=
  let (values, memory) := m.iterate v
  (values.map fun values =>
    match m.keptItems v with
    | [] => values.map (none, ·)
    | kept => kept.map fun i => (some i.label, i.it), memory)

/-- A field of a command. -/
def ofCommand? (label : Label) (c : Command) (words : List Label) : Field → Option View
  | .arguments => some (held (argumentsOf label c words))
  | .program => (c.items words)[0]?.map held
  | .ignoresStatus => some (made (.bool c.ignoresStatus))
  | _ => none

/-- The elements that a look into a value makes, where it has places. -/
def madeElements? (m : Memory) : Value → Option (List Value)
  | .object ref =>
    if ref.kind = .byteArray then some (Value.ofBytes (m.bytesOf ref)) else none
  | .str t => (Value.str t).items?
  | .bytes b => (Value.bytes b).items?
  | .view b => (Value.view b).items?
  | .range start stop step => (Value.range start stop step).items?
  | _ => none

/-- The element of a value at a place. -/
def element (m : Memory) (n : Nat) (v : Value) : Except Failure View :=
  match heldItems? v, madeElements? m v, v with
  | some items, _, _ =>
    match items[n]? with
    | some item => .ok (held item)
    | none => .error .indexOutOfRange
  | none, some values, _ =>
    match values[n]? with
    | some v => .ok (made v)
    | none => .error .indexOutOfRange
  | none, none, .dict _ => .error .missingKey
  | none, none, _ => .error .wrongType

/-- The operations of a value of this library. -/
def operationsOf : Value → List Text
  | .command .. => ["ignore_status"]
  | .graph _ => ["leaves"]
  | .redirects _ => ["get", "items"]
  | _ => []

/-- A field of a value. -/
def ofItem? (i : Item) (f : Field) : Option View :=
  match i.it, f with
  | .graph g, f => ofGraph? g f
  | .target t, f => ofTargetField? ⟨i.label, t⟩ f
  | .command c words, f => ofCommand? i.label c words f
  | .redirects r, .stream s => some (ofTarget? (r.get s))
  | _, _ => none

/-- Take one step into a value. What the caller gave comes before what the value has by itself. -/
def get (m : Memory) (step : Step) (v : View) : Except Failure View :=
  let i : Item := match v with
    | held i => i
    | made v => ⟨.constant [], v⟩
  match step.field, m.field? i.label step.name, ofItem? i step.field with
  | .place n, _, _ => element m n i.it
  | _, some i, _ => .ok (held i)
  | _, none, some view => .ok view
  | _, none, none =>
    if (operationsOf i.it).contains step.name then .ok (made (.operation step.name))
    else .error (.lacking i.it.typeName step.name)

/-- Take one step after the other. -/
def follow (m : Memory) (v : View) (path : List Step) : Except Failure View :=
  path.foldlM (fun v step => v.get m step) v

end View

/-- How a caller tries to change a field. -/
inductive Change where
  | assign
  | delete
deriving DecidableEq, Repr

/-- Why a field of a value can never be changed; objects of the caller allow it. -/
def Value.refusal? (change : Change) (name : Text) : Value → Option Failure
  | command .. => some (.immutable "Command")
  | graph (.unknown ..) | target (.unknown _) => .none
  | graph _ | target _ | redirects _ =>
    some (match change with
      | .assign => .frozenField name
      | .delete => .lastingField name)
  | plain _ | file _ | lostFile _ | path _ | bytePath _ => .none
  | object ref => if ref.kind = .byteArray then some (.lacking "bytearray" name) else .none
  | v => some (.lacking v.typeName name)

/-- The memory after a field of an object was set to a value. -/
def Memory.assign (m : Memory) (i : Item) (name : Text) (v : Item) : Except Failure Memory :=
  match i.it.refusal? .assign name with
  | some e => .error e
  | none => .ok (m.putField i.label name v)

/-- The memory after a field of an object was taken away. -/
def Memory.delete (m : Memory) (i : Item) (name : Text) : Except Failure Memory :=
  match i.it.refusal? .delete name, m.field? i.label name with
  | some e, _ => .error e
  | none, some _ => .ok (m.dropField i.label name)
  | none, none => .error (.lacking i.it.typeName name)

end Pipework
