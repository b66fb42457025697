import Pipework.Graph.Inspect

/-!
# Building graphs

Graphs are put together from commands and from other graphs, which stay as they are. A stream can be
redirected once, a pipe needs both of its ends free, and no node may stand twice in a graph. Building
draws the numbers of new nodes and of other new objects from a counter.
-/

namespace Pipework

/-- A step of building: it may draw numbers, or fail. -/
abbrev Building := StateT Nat (Except BuildError)

namespace Building

/-- A number that no other object has. -/
def freshNumber : Building Nat := modifyGet fun n => (n, n + 1)

/-- The label of a new object. -/
def freshLabel : Building Label := return .own (← freshNumber)

end Building

namespace Graph

/-- A new leaf for a command. -/
def ofCommand (command : Item) : Building Graph := return .leaf (← Building.freshNumber) command {}

/-- An item as a graph: a command becomes a leaf. -/
def ofItem (i : Item) : Building Graph :=
  match i.it with
  | .graph g => return g
  | .command .. => ofCommand i
  | v => throw (.notAGraph v.typeName)

end Graph

namespace Value

/-- A value as something to feed from or to drain into. -/
def toBuffer : Value → Buffer
  | str t => .text t
  | bytes b => .bytes b
  | view b => .view b
  | object ref => .object ref
  | v => .unusable v.typeName

/-- Whether a value can be read from. -/
def isReadable : Value → Bool
  | object ref =>
    match ref.kind with
    | .byteStream | .textStream | .textSink | .source => true
    | .byteArray | .sink | .iterator => false
  | _ => false

/-- Whether a value can be written to. -/
def isWritable : Value → Bool
  | object ref =>
    match ref.kind with
    | .byteStream | .textStream | .textSink | .sink => true
    | .byteArray | .source | .iterator => false
  | _ => false

/-- Whether an object of the memory can feed a stream, or take what comes out of it. -/
def servesAsBuffer (v : Value) (s : Stream) : Bool :=
  match v with
  | object ref => ref.kind == .byteArray || (if s = .stdin then v.isReadable else v.isWritable)
  | _ => false

end Value

namespace Target

/-- A new target. -/
def fresh (t : Target) : Building (Option (Labelled Target)) := return some ⟨← Building.freshLabel, t⟩

/-- What an item means as a redirect of a stream; an absent value means no redirect. -/
def ofItem? (i : Item) (s : Stream) (append : Bool) : Building (Option (Labelled Target)) := do
  match i.it with
  | .none => return none
  | .target t =>
    match t, s with
    | .file _ true, .stdin => throw .appendToInput
    | t, _ => return some ⟨i.label, t⟩
  | .graph g => fresh (.graph g)
  | .command .. => fresh (.graph (← Graph.ofCommand i))
  | .bool b => throw (.truthValue s b)
  | .int _ | .file _ => fresh (.stream i)
  | .bytes _ => if s = .stdin then fresh (.buffer i) else throw (.immutableOutput s i.it.typeName)
  | .view b =>
    if s = .stdin then fresh (.buffer ⟨← Building.freshLabel, .bytes b⟩)
    else throw (.immutableOutput s i.it.typeName)
  | v =>
    match v.pathName? with
    | some path =>
      let label := (Value.argumentLabel? i).getD (← Building.freshLabel)
      fresh (.file ⟨label, .str path⟩ (append && s != .stdin))
    | none => if v.servesAsBuffer s then fresh (.buffer i) else throw (.noTarget s v.typeName)

/-- What an item means as a redirect of a stream given by name. -/
def ofNamed? (i : Item) (stream : Value) (append : Bool) : Building (Option (Labelled Target)) :=
  match stream with
  | .str name =>
    match Stream.ofName? name with
    | some s => ofItem? i s append
    | none => throw (.unknownStream stream)
  | _ => throw (.unknownStream stream)

end Target

/-- New redirects with some streams set; of one stream the last target counts. -/
def Redirects.ofItems (items : List (Stream × Labelled Target)) : Building Redirects := do
  return items.foldl (fun r (s, t) => r.set s t) { label := ← Building.freshLabel }

/-- What a caller gives as the redirect of each stream. -/
structure RedirectValues where
  stdin : Item := Item.absent
  stdout : Item := Item.absent
  stderr : Item := Item.absent

/-- What is given for one stream. -/
def RedirectValues.get (r : RedirectValues) : Stream → Item
  | .stdin => r.stdin
  | .stdout => r.stdout
  | .stderr => r.stderr

namespace Graph

/-- Go through some nodes by number, after others; fail at the first that was there before. -/
def scanNodes (seen : List Nat) : List Graph → Except BuildError Unit
  | [] => .ok ()
  | .stray held :: _ => .error (.noNode held.it.typeName)
  | g :: rest =>
    if seen.contains g.number then .error (.repeatedNode g) else scanNodes (g.number :: seen) rest

/-- Fail if a node stands twice among the nodes of some graphs. -/
def checkDistinct (graphs : List Graph) : Except BuildError Unit := scanNodes [] (nodesOfAll graphs)

/-- Whether a stream of a graph's boundary is redirected already. -/
def isTaken (g : Graph) (s : Stream) : Except BuildError Bool :=
  match g.strayAt? s with
  | some held => .error (.noNode held.it.typeName)
  | none => .ok (g.boundary s).isSome

/-- Connect the stdout of one graph to the stdin of another. -/
def pipeInto (left right : Item) : Building Graph := do
  let up ← ofItem left
  let down ← ofItem right
  if ← isTaken up .stdout then throw (.conflict (.pipeFrom up))
  if ← isTaken down .stdin then throw (.conflict (.pipeInto down))
  checkDistinct [up, down]
  return .pipe (← Building.freshNumber) up down {}

/-- The members that a graph contributes to a group: a group without redirects is taken apart. -/
def flatten : Graph → List Graph
  | .group number label members r =>
    if r.isEmpty then members else [.group number label members r]
  | g => [g]

/-- A new group. -/
def ofMembers (members : List Graph) (r : Redirects) : Building Graph := do
  let number ← Building.freshNumber
  return .group number (.part (.own number) "members") members r

/-- Run some graphs side by side on shared streams. -/
def parallel (members : List Item) : Building Graph := do
  if members.isEmpty then throw .noMembers
  let graphs ← members.mapM ofItem
  let flat := graphs.flatMap flatten
  checkDistinct flat
  ofMembers flat {}

/-- The stream at the far end of a connection to another graph. -/
def farStream : Stream → Stream
  | .stdin => .stdout
  | .stdout => .stdin
  | .stderr => .stdin

/-- The target for one stream of a node, checked against what is redirected already. -/
def claim (node : Graph) (values : RedirectValues) (append : Bool) (s : Stream) :
    Building (Option (Labelled Target)) := do
  let target? ← Target.ofItem? (values.get s) s append
  match target? with
  | none => return none
  | some t =>
    if ← isTaken node s then throw (.conflict (.redirected s node))
    if let some other := t.it.graph? then
      if ← isTaken other (farStream s) then throw (.conflict (.connected s other (farStream s)))
    return some t

/-- Redirect the boundary of a graph. Without any redirect it is the same graph. -/
def redirect (graph : Item) (values : RedirectValues) (append : Bool) : Building Graph := do
  let node ← ofItem graph
  let stdin ← claim node values append .stdin
  let stdout ← claim node values append .stdout
  let stderr ← claim node values append .stderr
  let added : Redirects := { stdin, stdout, stderr }
  if added.isEmpty then return node
  checkDistinct (node :: added.graphs)
  let r ← Redirects.ofItems (node.redirects.items ++ added.items)
  match node.withRedirects? (← Building.freshNumber) r with
  | some redirected => return redirected
  | none => throw (.rigidNode node.kind)

/-- Join graphs by pipes, left to right. -/
def chain (first : Graph) : List Item → Building Graph
  | [] => return first
  | stage :: rest => do
    let joined ← pipeInto first.toItem stage
    chain joined rest

/-- Take a path in front of at least one other stage as the redirect of stdin. -/
def takeInput (stages : List Item) (values : RedirectValues) :
    Except BuildError (List Item × RedirectValues) :=
  match stages with
  | first :: second :: rest =>
    if first.it.isPathLike then
      match values.stdin.it with
      | .none => .ok (second :: rest, { values with stdin := first })
      | _ => .error (.conflict (.twice .stdin "first"))
    else .ok (stages, values)
  | _ => .ok (stages, values)

/-- Take a path behind at least one other stage as the redirect of stdout. -/
def takeOutput (stages : List Item) (values : RedirectValues) :
    Except BuildError (List Item × RedirectValues) :=
  match stages.reverse with
  | last :: second :: rest =>
    if last.it.isPathLike then
      match values.stdout.it with
      | .none => .ok ((second :: rest).reverse, { values with stdout := last })
      | _ => .error (.conflict (.twice .stdout "last"))
    else .ok (stages, values)
  | _ => .ok (stages, values)

/-- Join stages by pipes and redirect the whole. A path as first or last stage is the file to read
from or to write to. -/
def pipeline (stages : List Item) (values : RedirectValues) (append : Bool) : Building Graph := do
  if stages.isEmpty then throw .noStages
  let (stages, values) ← takeInput stages values
  let (stages, values) ← takeOutput stages values
  match stages with
  | [] => throw .noStages
  | first :: rest =>
    let graph ← chain (← ofItem first) rest
    redirect graph.toItem values append

end Graph

end Pipework
