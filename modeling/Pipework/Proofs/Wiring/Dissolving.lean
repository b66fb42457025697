import Pipework.Proofs.Graph.Nodes
import Pipework.Proofs.Wiring.Regrouping

/-!
# Groups within groups

A group without redirects that is a member of another group may be replaced by its members
(`Graph.Dissolves`), wherever in a graph it stands, also in the graphs that redirects lead to. It hands down what
each stream is outside, makes nothing of its own and asks for nothing. So the commands stay in their order, the
same ends are asked for, and walking the graph is the same program, whatever the streams are outside
(`Graph.Dissolves.walk`).
-/

namespace Pipework

/-- The same redirects, but for the graph that the redirect of one stream leads to. -/
structure Redirects.Reattached (s : Stream) (g h : Graph) (r r' : Redirects) : Prop where
  before : ∃ label, r.get s = some ⟨label, .graph g⟩
  after : ∃ label, r'.get s = some ⟨label, .graph h⟩
  others : ∀ t, t ≠ s → r'.get t = r.get t

/-- What does not tell the two graphs apart is the same of all redirects. -/
theorem Redirects.Reattached.same {α : Type} {s : Stream} {g h : Graph} {r r' : Redirects}
    (reattached : r.Reattached s g h r') (f : Option (Labelled Target) → α)
    (alike : ∀ label label', f (some ⟨label', .graph h⟩) = f (some ⟨label, .graph g⟩)) (t : Stream) :
    f (r'.get t) = f (r.get t) := by
  by_cases here : t = s
  · subst here
    obtain ⟨⟨label, before⟩, ⟨label', after⟩, -⟩ := reattached
    rw [before, after, alike]
  · rw [reattached.others t here]

namespace Graph

/-- Somewhere in a graph, a group without redirects that is a member of another group is replaced by its members.
The nodes around it are new ones. -/
inductive Dissolves : Graph → Graph → Prop
  | member {before inner after : List Graph} {own : Redirects} (number number' within : Nat)
    (label label' inside : Label) (r : Redirects) (free : own.isEmpty = true) :
    Dissolves (.group number label (before ++ .group within inside inner own :: after) r)
      (.group number' label' (before ++ (inner ++ after)) r)
  | left {up up' : Graph} (number number' : Nat) (down : Graph) (r : Redirects) (inside : Dissolves up up') :
    Dissolves (.pipe number up down r) (.pipe number' up' down r)
  | right {down down' : Graph} (number number' : Nat) (up : Graph) (r : Redirects) (inside : Dissolves down down') :
    Dissolves (.pipe number up down r) (.pipe number' up down' r)
  | within {g g' : Graph} {before after : List Graph} (number number' : Nat) (label label' : Label) (r : Redirects)
    (inside : Dissolves g g') :
    Dissolves (.group number label (before ++ g :: after) r) (.group number' label' (before ++ g' :: after) r)
  | attached {node node' g g' : Graph} {s : Stream} {r : Redirects} {number : Nat} (inside : Dissolves g g')
    (reattached : node.redirects.Reattached s g g' r) (made : node.withRedirects? number r = some node') :
    Dissolves node node'

/-! ## Leaves -/

/-- The item that a leaf holds. -/
def held? : Graph → Option Item
  | .leaf _ command _ => some command
  | _ => none

theorem leavesOfAll_append (a b : List Graph) : leavesOfAll (a ++ b) = leavesOfAll a ++ leavesOfAll b := by
  induction a with
  | nil => rfl
  | cons g rest ih => rw [List.cons_append, leavesOfAll, leavesOfAll, ih, List.append_assoc]

theorem leavesOfRedirects_get (r : Redirects) : leavesOfRedirects r =
    leavesOfTarget? (r.get .stdin) ++ leavesOfTarget? (r.get .stdout) ++ leavesOfTarget? (r.get .stderr) := by
  obtain ⟨stdin, stdout, stderr, label⟩ := r
  rfl

/-- Without redirects there are no leaves behind them. -/
theorem leavesOfRedirects_of_isEmpty {r : Redirects} (free : r.isEmpty = true) : leavesOfRedirects r = [] := by
  obtain ⟨_ | stdin, _ | stdout, _ | stderr, label⟩ := r <;> first | rfl | cases free

theorem nodesOfRedirects_of_isEmpty {r : Redirects} (free : r.isEmpty = true) : nodesOfRedirects r = [] := by
  obtain ⟨_ | stdin, _ | stdout, _ | stderr, label⟩ := r <;> first | rfl | cases free

/-- The leaves stay in their order. -/
theorem Dissolves.leaves {g g' : Graph} (dissolves : Dissolves g g') : g'.leaves.map held? = g.leaves.map held? := by
  induction dissolves with
  | member number number' within label label' inside r free =>
    rw [Graph.leaves, Graph.leaves, leavesOfAll_append, leavesOfAll_append, leavesOfAll_append, leavesOfAll, Graph.leaves,
      leavesOfRedirects_of_isEmpty free, List.append_nil]
  | left number number' down r inside ih => simp only [Graph.leaves, List.map_append, ih]
  | right number number' up r inside ih => simp only [Graph.leaves, List.map_append, ih]
  | within number number' label label' r inside ih =>
    simp only [Graph.leaves, leavesOfAll_append, leavesOfAll, List.map_append, ih]
  | @attached node node' g g' s r number inside reattached made ih =>
    have target := reattached.same (fun t => (leavesOfTarget? t).map held?) fun _ _ => ih
    have behind : (leavesOfRedirects r).map held? = (leavesOfRedirects node.redirects).map held? := by
      simp only [leavesOfRedirects_get, List.map_append, target]
    cases node with
    | leaf k command own =>
      cases made
      simp only [Graph.leaves, List.map_cons, behind, held?]
      rfl
    | pipe k up down own =>
      cases made
      simp only [Graph.leaves, List.map_append, behind]
      rfl
    | group k label members own =>
      cases made
      simp only [Graph.leaves, List.map_append, behind]
      rfl
    | unknown | stray => cases made

end Graph

/-! ## Walking -/

namespace Wiring

theorem walkMembers_append (inner : Context) (a b : List Graph) :
    walkMembers inner (a ++ b) = (do walkMembers inner a; walkMembers inner b) := by
  induction a with
  | nil =>
    rw [List.nil_append, walkMembers]
    exact (pure_bind _ _).symm
  | cons g rest ih => simp only [List.cons_append, walkMembers, ih, bind_assoc]

/-- A member that is walked like some others may be replaced by them. -/
theorem walkMembers_middle {inner : Context} {g : Graph} {others : List Graph} (before after : List Graph)
    (same : walkMembers inner others = walk inner g) :
    walkMembers inner (before ++ (others ++ after)) = walkMembers inner (before ++ g :: after) := by
  rw [walkMembers_append, walkMembers_append, walkMembers_append, same, walkMembers]

/-- A group without redirects is walked like its members. -/
theorem walk_of_isEmpty {own : Redirects} (free : own.isEmpty = true) (c : Context) (number : Nat) (label : Label)
    (members : List Graph) : walk c (.group number label members own) = walkMembers c members := by
  have inside : (⟨none, none, none⟩ : ResolvedNode).inner c = c := rfl
  obtain ⟨_ | stdin, _ | stdout, _ | stderr, label⟩ := own <;>
    first
    | simp only [walk, resolveNode, resolve?, pure_bind, walkAttached, walkTarget?, inside]
      exact bind_pure _
    | cases free

section Reattached

variable {s : Stream} {g h : Graph} {r r' : Redirects} (reattached : r.Reattached s g h r')
include reattached

/-- What redirects ask for does not depend on which graph they lead to. -/
theorem resolveNode_reattached (c : Context) : resolveNode r' c = resolveNode r c := by
  have same (t : Stream) := reattached.same (resolve? · t c) (fun _ _ => rfl) t
  have stdin : resolve? r'.stdin .stdin c = resolve? r.stdin .stdin c := same .stdin
  have stdout : resolve? r'.stdout .stdout c = resolve? r.stdout .stdout c := same .stdout
  have stderr : resolve? r'.stderr .stderr c = resolve? r.stderr .stderr c := same .stderr
  rw [resolveNode, resolveNode, stdin, stdout, stderr]

theorem walkAttached_reattached (alike : ∀ c, walk c h = walk c g) (node : ResolvedNode) :
    walkAttached node r' = walkAttached node r := by
  have same (resolved : Option Resolved) (t : Stream) :
      walkTarget? resolved (r'.get t) = walkTarget? resolved (r.get t) := by
    refine reattached.same (walkTarget? resolved ·) (fun label label' => ?_) t
    rcases resolved with _ | ⟨value, _ | c⟩
    · rfl
    · rfl
    · simp only [walkTarget?, alike]
  have stdin := same node.stdin .stdin
  have stdout := same node.stdout .stdout
  have stderr := same node.stderr .stderr
  obtain ⟨_, _, _, _⟩ := r
  obtain ⟨_, _, _, _⟩ := r'
  rw [walkAttached, walkAttached]
  exact congrArg₂ (fun f g => f >>= fun _ => g) stdin (congrArg₂ (fun f g => f >>= fun _ => g) stdout stderr)

end Reattached

end Wiring

/-- Walking is the same program: it makes the same descriptors in the same order, and starts every command with the
same streams. -/
theorem Graph.Dissolves.walk {g g' : Graph} (dissolves : g.Dissolves g') (c : Context) :
    Wiring.walk c g' = Wiring.walk c g := by
  induction dissolves generalizing c with
  | @member before inner after own number number' within label label' inside r free =>
    have members (c : Context) : Wiring.walkMembers c (before ++ (inner ++ after)) =
        Wiring.walkMembers c (before ++ .group within inside inner own :: after) :=
      Wiring.walkMembers_middle before after (Wiring.walk_of_isEmpty free c within inside inner).symm
    simp only [Wiring.walk, members]
  | left number number' down r inside ih => simp only [Wiring.walk, ih]
  | right number number' up r inside ih => simp only [Wiring.walk, ih]
  | within number number' label label' r inside ih =>
    simp only [Wiring.walk, Wiring.walkMembers_append, Wiring.walkMembers, ih]
  | @attached node node' g g' s r number inside reattached made ih =>
    -- The pipe to the attached graph is made before anybody looks at that graph.
    have resolved := Wiring.resolveNode_reattached reattached c
    have attached := Wiring.walkAttached_reattached reattached ih
    cases node with
    | leaf k command own =>
      cases made
      have command : Graph.commandOf (.leaf number command r) = Graph.commandOf (.leaf k command own) := by
        obtain ⟨label, value⟩ := command
        cases value <;> rfl
      simp only [Wiring.walk, command]
      exact congrArg₂ _ resolved (by simp only [attached]; rfl)
    | pipe k up down own =>
      cases made
      simp only [Wiring.walk]
      exact congrArg₂ _ resolved (by simp only [attached]; rfl)
    | group k label members own =>
      cases made
      simp only [Wiring.walk]
      exact congrArg₂ _ resolved (by simp only [attached]; rfl)
    | unknown | stray => cases made

/-! ## The ends for the caller -/

/-- Redirects ask for the same ends, whichever graph they lead to. -/
theorem claimEndpoints_reattached {s : Stream} {g h : Graph} {r r' : Redirects} (reattached : r.Reattached s g h r')
    (seen : List Stream) : claimEndpoints seen r'.items = claimEndpoints seen r.items := by
  obtain ⟨⟨label, before⟩, ⟨label', after⟩, others⟩ := reattached
  unfold Redirects.items
  induction Stream.all generalizing seen with
  | nil => rfl
  | cons t rest ih =>
    by_cases here : t = s
    · subst here
      simp only [List.filterMap_cons, before, after, Option.map_some, claimEndpoints]
      exact ih seen
    · rw [List.filterMap_cons, List.filterMap_cons, others t here]
      cases r.get t with
      | none => exact ih seen
      | some u => simp only [Option.map_some, claimEndpoints, ih]

namespace SameAsks

variable {nodes nodes' : List Graph}

theorem reattached {s : Stream} {g h : Graph} {r r' : Redirects} (reattached : r.Reattached s g h r')
    (inside : ∀ {nodes nodes'}, SameAsks nodes nodes' → SameAsks (g.nodes ++ nodes) (h.nodes ++ nodes'))
    (same : SameAsks nodes nodes') :
    SameAsks (Graph.nodesOfRedirects r ++ nodes) (Graph.nodesOfRedirects r' ++ nodes') := by
  have one {nodes nodes' : List Graph} (t : Stream) (same : SameAsks nodes nodes') :
      SameAsks (Graph.nodesOfTarget? (r.get t) ++ nodes) (Graph.nodesOfTarget? (r'.get t) ++ nodes') := by
    by_cases here : t = s
    · subst here
      obtain ⟨⟨label, before⟩, ⟨label', after⟩, -⟩ := reattached
      rw [before, after]
      exact inside same
    · rw [reattached.others t here]
      exact same.prepend _
  rw [Graph.nodesOfRedirects_get, Graph.nodesOfRedirects_get]
  simp only [List.append_assoc]
  exact one .stdin (one .stdout (one .stderr same))

/-- Two nodes that ask for the same ends. -/
theorem node {g h : Graph} (isNode : g.stray? = none) (isNode' : h.stray? = none)
    (asks : ∀ seen, claimEndpoints seen h.redirects.items = claimEndpoints seen g.redirects.items)
    (same : SameAsks nodes nodes') : SameAsks (g :: nodes) (h :: nodes') := by
  intro seen
  rw [scanEndpoints_cons isNode, scanEndpoints_cons isNode', asks]
  exact congrArg _ (funext same)

/-- A node without redirects asks for nothing. -/
theorem bare {g : Graph} (isNode : g.stray? = none) (free : g.redirects.isEmpty = true) (same : SameAsks nodes nodes') :
    SameAsks (g :: nodes) nodes' := by
  intro seen
  have none : g.redirects.items = [] := List.isEmpty_iff.mp free
  rw [scanEndpoints_cons isNode, none]
  exact same seen

end SameAsks

theorem Graph.Dissolves.sameAsks {g g' : Graph} (dissolves : g.Dissolves g') {nodes nodes' : List Graph}
    (same : SameAsks nodes nodes') : SameAsks (g.nodes ++ nodes) (g'.nodes ++ nodes') := by
  induction dissolves generalizing nodes nodes' with
  | @member before inner after own number number' within label label' inside r free =>
    simp only [Graph.nodes, nodesOfAll_append, nodesOfAll, List.cons_append, List.append_assoc,
      nodesOfRedirects_of_isEmpty free, List.nil_append]
    exact .node rfl rfl (fun _ => rfl) (.prepend _ (.bare rfl free (.prepend _ (.prepend _ (.prepend _ same)))))
  | left number number' down r inside ih =>
    simp only [Graph.nodes, List.cons_append, List.append_assoc]
    exact .node rfl rfl (fun _ => rfl) (ih (.prepend _ (.prepend _ same)))
  | right number number' up r inside ih =>
    simp only [Graph.nodes, List.cons_append, List.append_assoc]
    exact .node rfl rfl (fun _ => rfl) (.prepend _ (ih (.prepend _ same)))
  | within number number' label label' r inside ih =>
    simp only [Graph.nodes, nodesOfAll_append, nodesOfAll, List.cons_append, List.append_assoc]
    exact .node rfl rfl (fun _ => rfl) (.prepend _ (ih (.prepend _ (.prepend _ same))))
  | @attached node node' g g' s r number inside reattached made ih =>
    have asks := claimEndpoints_reattached reattached
    have behind := SameAsks.reattached reattached ih same
    cases node with
    | leaf k command own =>
      cases made
      exact .node rfl rfl asks behind
    | pipe k up down own =>
      cases made
      simp only [Graph.nodes, List.cons_append, List.append_assoc]
      exact .node rfl rfl asks (.prepend _ (.prepend _ behind))
    | group k label members own =>
      cases made
      simp only [Graph.nodes, List.cons_append, List.append_assoc]
      exact .node rfl rfl asks (.prepend _ behind)
    | unknown | stray => cases made

/-- The same ends are asked for, or the same is refused. -/
theorem Graph.Dissolves.checkEndpoints {g g' : Graph} (dissolves : g.Dissolves g') :
    checkEndpoints g' = checkEndpoints g := by
  have same := dissolves.sameAsks (fun _ => rfl : SameAsks [] []) []
  rw [List.append_nil, List.append_nil] at same
  exact same.symm

end Pipework
