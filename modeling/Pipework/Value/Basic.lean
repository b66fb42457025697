import Pipework.Command.Basic
import Pipework.Decimal.Double
import Pipework.Object
import Pipework.Stream
import Pipework.Text.Coding

/-!
# Values and graphs

A value is what a caller may interpolate into a template or give as a redirect: plain data, collections,
paths, objects of the memory, and the commands, graphs and targets of this library.

A graph says how commands are connected and starts nothing. Its nodes are single commands, pipes from
one graph to another, and groups that share their streams. Each node carries redirects for its own
boundary; a redirect may lead to another graph, or to any value that the caller takes for a buffer or for
a descriptor. Every node has a number that tells it from nodes of the same shape, because one node may
stand only once in a graph.

The parts of a node are whatever the caller puts there. A `stray` is a value in the place of a node or of
a target; it is kept as it is, and fails when it is asked for what it is not.
-/

namespace Pipework

mutual

/-- A value of the caller. -/
inductive Value where
  | none
  | bool (b : Bool)
  | int (n : Int)
  | float (d : Double)
  | str (t : Text)
  | bytes (b : Bytes)
  /-- A read-only view of bytes. -/
  | view (b : Bytes)
  /-- A path object. -/
  | path (name : Text)
  /-- A path object whose name is given in bytes. -/
  | bytePath (name : Bytes)
  | list (items : List (Labelled Value))
  | tuple (items : List (Labelled Value))
  | set (items : List (Labelled Value))
  | range (start stop step : Int)
  | dict (entries : List (Text × Labelled Value))
  | object (ref : ObjectRef)
  /-- An object of some other type, with nothing but a text of its own. -/
  | plain (text : Text)
  /-- A file object and its descriptor. -/
  | file (descriptor : Int)
  /-- A file object that has lost its descriptor. -/
  | lostFile (reason : NoDescriptor)
  /-- A command, and which objects its arguments are. -/
  | command (c : Command) (words : List Label)
  | graph (g : Graph)
  | target (t : Target)
  | redirects (r : Redirects)
  /-- An operation of another value, by its name; it can only be held. -/
  | operation (name : Text)

/-- Where a redirected stream leads. -/
inductive Target where
  /-- A named file: read for stdin, else truncated or appended to. -/
  | file (path : Labelled Value) (append : Bool)
  /-- A buffer in memory, which the caller fills or inspects. -/
  | buffer (held : Labelled Value)
  /-- Another graph, through a pipe. -/
  | graph (g : Graph)
  /-- A descriptor that the caller owns, or what the caller takes for one. -/
  | stream (held : Labelled Value)
  /-- An end that the caller gets. -/
  | endpoint
  /-- A target of no known kind. -/
  | unknown (name : Text)
  /-- A value that is no target although it stands for one. -/
  | stray (held : Labelled Value)

/-- The redirects of one node. Nodes that were made without any have the same ones. -/
structure Redirects where
  stdin : Option (Labelled Target) := .none
  stdout : Option (Labelled Target) := .none
  stderr : Option (Labelled Target) := .none
  label : Label := .constant "no redirects"

/-- A process graph. -/
inductive Graph where
  /-- A single command; a leaf that holds anything else can be looked at, but not started. -/
  | leaf (number : Nat) (command : Labelled Value) (redirects : Redirects)
  /-- The stdout of the left graph feeds the stdin of the right one. -/
  | pipe (number : Nat) (left right : Graph) (redirects : Redirects)
  /-- Graphs side by side. The label is that of their list, which copies of the node share. -/
  | group (number : Nat) (label : Label) (members : List Graph) (redirects : Redirects)
  /-- A node of no known kind; it holds no command and no redirect. -/
  | unknown (number : Nat) (name : Text)
  /-- A value that is no node although it stands for one. -/
  | stray (held : Labelled Value)

end

/-- A value and which object it is. -/
abbrev Item := Labelled Value

/-- The absent value, which there is only one of. -/
def Item.absent : Item := ⟨.constant "none", .none⟩

instance : Inhabited Value := ⟨.none⟩

instance : Inhabited Redirects := ⟨{}⟩

instance : Inhabited Graph := ⟨.unknown 0 []⟩

/-- The name of a target's type. -/
def Target.typeName : Target → Text
  | .file .. => "FileTarget"
  | .buffer _ => "BufferTarget"
  | .graph _ => "GraphTarget"
  | .stream .. => "StreamTarget"
  | .endpoint => "EndpointTarget"
  | .unknown name => name
  | .stray _ => "object"

/-- The name of a node's kind. -/
def Graph.kind : Graph → Text
  | .leaf .. => "Leaf"
  | .pipe .. => "Pipe"
  | .group .. => "Group"
  | .unknown _ name => name
  | .stray _ => "object"

namespace Value

/-- The name of a value's type. -/
def typeName : Value → Text
  | none => "NoneType"
  | bool _ => "bool"
  | int _ => "int"
  | float _ => "float"
  | str _ => "str"
  | bytes _ => "bytes"
  | view _ => "memoryview"
  | path _ => "FsPath"
  | bytePath _ => "FsPath"
  | list _ => "list"
  | tuple _ => "tuple"
  | set _ => "set"
  | range .. => "range"
  | dict _ => "dict"
  | object ref => ref.kind.label
  | plain _ => "Opaque"
  | file _ => "FdFile"
  | lostFile _ => "NoFdFile"
  | command .. => "Command"
  | graph g => g.kind
  | target t => t.typeName
  | redirects _ => "Redirects"
  | operation _ => "method"

/-- Whether a value is a path or the name of one. -/
def isPathLike : Value → Bool
  | str _ | path _ | bytePath _ => true
  | _ => false

/-- The name that a path value stands for. -/
def pathName? : Value → Option Text
  | str t => some t
  | path t => some t
  | bytePath b => some (Text.ofBytes b)
  | _ => Option.none

/-- How many whole numbers a range has. -/
def rangeLength (start stop step : Int) : Nat :=
  (if 0 < step then (stop - start + step - 1).fdiv step
    else if step < 0 then (start - stop - step - 1).fdiv (-step)
    else 0 : Int).toNat

/-- Whether a value stands for nothing: an absence, a zero, or something without elements. The content
of an object of the memory is not looked at. -/
def isVoid : Value → Bool
  | none => true
  | bool b => !b
  | int n => n == 0
  | float d => d.units == 0
  | str t => t.isEmpty
  | bytes b | view b => b.isEmpty
  | list items | tuple items | set items => items.isEmpty
  | range start stop step => rangeLength start stop step == 0
  | dict entries => entries.isEmpty
  | redirects ⟨.none, .none, .none, _⟩ => true
  | _ => false

/-- The whole numbers of a range. -/
def rangeItems (start stop step : Int) : List Int :=
  (List.range (rangeLength start stop step)).map fun i : Nat => start + step * (i : Int)

end Value

end Pipework
