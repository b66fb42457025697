import Pipework.Value.Text

/-!
# Looking at a graph

The nodes and the leaves of a graph in the order in which they are started: the parts of a node first,
then the graphs that its redirects lead to. The boundary of a pipe's stdin is that of
its left graph, the boundary of its stdout that of its right graph; the members of a group may be
redirected without claiming the group's boundary.

A value that stands for a node is listed among the nodes. Whoever goes through them fails when he comes to
it: `Graph.checkWhole` is that failure for a look at the whole graph.
-/

namespace Pipework

mutual

/-- Every node of a graph, the node itself first. -/
def Graph.nodes : Graph → List Graph
  | .leaf number command r => .leaf number command r :: Graph.nodesOfRedirects r
  | .pipe number u d r => .pipe number u d r :: (u.nodes ++ d.nodes ++ Graph.nodesOfRedirects r)
  | .group number label ms r =>
    .group number label ms r :: (Graph.nodesOfAll ms ++ Graph.nodesOfRedirects r)
  | .unknown number name => [.unknown number name]
  | .stray held => [.stray held]

/-- Every node of the graphs of a list. -/
def Graph.nodesOfAll : List Graph → List Graph
  | [] => []
  | g :: rest => g.nodes ++ Graph.nodesOfAll rest

/-- Every node of the graphs that redirects lead to. -/
def Graph.nodesOfRedirects : Redirects → List Graph
  | ⟨stdin, stdout, stderr, _⟩ =>
    Graph.nodesOfTarget? stdin ++ Graph.nodesOfTarget? stdout ++ Graph.nodesOfTarget? stderr

/-- Every node of the graph that a redirect leads to. -/
def Graph.nodesOfTarget? : Option (Labelled Target) → List Graph
  | some ⟨_, .graph g⟩ => g.nodes
  | _ => []

end

mutual

/-- The leaves of a graph in the order in which they are started. -/
def Graph.leaves : Graph → List Graph
  | .leaf number command r => .leaf number command r :: Graph.leavesOfRedirects r
  | .pipe _ u d r => u.leaves ++ d.leaves ++ Graph.leavesOfRedirects r
  | .group _ _ ms r => Graph.leavesOfAll ms ++ Graph.leavesOfRedirects r
  | .unknown .. => []
  | .stray _ => []

/-- The leaves of the graphs of a list. -/
def Graph.leavesOfAll : List Graph → List Graph
  | [] => []
  | g :: rest => g.leaves ++ Graph.leavesOfAll rest

/-- The leaves of the graphs that redirects lead to. -/
def Graph.leavesOfRedirects : Redirects → List Graph
  | ⟨stdin, stdout, stderr, _⟩ =>
    Graph.leavesOfTarget? stdin ++ Graph.leavesOfTarget? stdout ++ Graph.leavesOfTarget? stderr

/-- The leaves of the graph that a redirect leads to. -/
def Graph.leavesOfTarget? : Option (Labelled Target) → List Graph
  | some ⟨_, .graph g⟩ => g.leaves
  | _ => []

end

namespace Graph

/-- The commands of a graph in the order in which they are started. -/
def commands (g : Graph) : List Command := g.leaves.filterMap command?

/-- Whether a node is a pipe. -/
def isPipe : Graph → Bool
  | .pipe .. => true
  | _ => false

/-- Whether a node is a group. -/
def isGroup : Graph → Bool
  | .group .. => true
  | _ => false

/-- The redirect that governs a graph's own stream, if there is one. -/
def boundary : Graph → Stream → Option (Labelled Target)
  | .pipe _ left right r, s =>
    match r.get s with
    | some t => some t
    | none =>
      match s with
      | .stdin => boundary left .stdin
      | .stdout => boundary right .stdout
      | .stderr => none
  | g, s => g.redirects.get s

/-- The value that stands where the node should be whose redirect governs a stream. -/
def strayAt? : Graph → Stream → Option Item
  | .pipe _ left right r, s =>
    match r.get s with
    | some _ => none
    | none =>
      match s with
      | .stdin => strayAt? left .stdin
      | .stdout => strayAt? right .stdout
      | .stderr => none
  | g, _ => g.stray?

/-- Fail if a graph is not made of nodes only. -/
def checkWhole (g : Graph) : Except BuildError Unit :=
  match g.nodes.findSome? stray? with
  | some held => .error (.noNode held.it.typeName)
  | none => .ok ()

end Graph

/-! ## The tree of a graph -/

/-- The blanks in front of a line; above the first level there are none. -/
def Graph.indent (depth : Int) : Text := List.replicate (2 * depth).toNat (.char ' ')

mutual

/-- The lines of a graph's tree. -/
def Graph.treeLines (m : Memory) (depth : Int) : Graph → List Text
  | .leaf _ command r =>
    (Graph.indent depth ++ "Leaf: " ++ command.it.text m) :: Graph.treeLinesOfRedirects m depth r
  | .pipe _ u d r =>
    (Graph.indent depth ++ "Pipe:") :: (u.treeLines m (depth + 1) ++ d.treeLines m (depth + 1)
      ++ Graph.treeLinesOfRedirects m depth r)
  | .group _ _ ms r =>
    (Graph.indent depth ++ "Group:") :: (Graph.treeLinesOfAll m (depth + 1) ms
      ++ Graph.treeLinesOfRedirects m depth r)
  | .unknown _ name => [Graph.indent depth ++ "Unknown node: <class '__main__." ++ name ++ "'>"]
  | .stray held => [Graph.indent depth ++ "Unknown node: " ++ held.it.text m]

/-- The lines of the trees of some graphs. -/
def Graph.treeLinesOfAll (m : Memory) (depth : Int) : List Graph → List Text
  | [] => []
  | g :: rest => g.treeLines m depth ++ Graph.treeLinesOfAll m depth rest

/-- The lines for the redirects of a node. -/
def Graph.treeLinesOfRedirects (m : Memory) (depth : Int) : Redirects → List Text
  | ⟨stdin, stdout, stderr, _⟩ =>
    Graph.treeLinesOfTarget? m depth .stdin stdin ++ Graph.treeLinesOfTarget? m depth .stdout stdout
      ++ Graph.treeLinesOfTarget? m depth .stderr stderr

/-- The lines for one redirect of a node: another graph goes below, anything else on the line. -/
def Graph.treeLinesOfTarget? (m : Memory) (depth : Int) (s : Stream) :
    Option (Labelled Target) → List Text
  | none => []
  | some ⟨_, .graph g⟩ =>
    (Graph.indent depth ++ "  Redirect " ++ s.text ++ ":") :: g.treeLines m (depth + 2)
  | some t => [Graph.indent depth ++ "  Redirect " ++ s.text ++ ": " ++ t.it.shown m]

end

/-- The tree of a graph as indented lines. -/
def Graph.tree (m : Memory) (g : Graph) (depth : Int) : Except BuildError Text := do
  g.checkWhole
  return Text.join [.char '\n'] (g.treeLines m depth)

/-- What starting a graph will do. -/
structure Plan where
  kind : Text
  /-- The program names in the order in which they are started. -/
  commands : List Text
  leafCount : Nat
  /-- The pipes between commands. -/
  pipeCount : Nat
  requiresGroup : Bool
  requiresRedirect : Bool
deriving DecidableEq, Repr

/-- Whether any pipe is needed. -/
def Plan.requiresPipe (p : Plan) : Bool := 0 < p.pipeCount

/-- The command of a leaf, or why it has none. -/
def Graph.commandOf : Graph → Except BuildError Command
  | .leaf _ ⟨_, .command c _⟩ _ => .ok c
  | .leaf _ ⟨_, v⟩ _ => .error (.noCommand v.typeName)
  | g => .error (.noCommand g.kind)

/-- What starting a graph will do. -/
def Graph.plan (g : Graph) : Except BuildError Plan := do
  g.checkWhole
  let nodes := g.nodes
  let commands ← g.leaves.mapM Graph.commandOf
  return {
    kind := g.kind
    commands := commands.map (·.program)
    leafCount := g.leaves.length
    pipeCount := nodes.countP Graph.isPipe + (nodes.flatMap fun n => n.redirects.graphs).length
    requiresGroup := nodes.any Graph.isGroup
    requiresRedirect := nodes.any fun n => !n.redirects.isEmpty }

end Pipework
