import Pipework.Proofs.Wiring.Distinct

/-!
# The chores of each node

The chores of a graph come node by node, in the order in which `Graph.nodes` lists them: first those
of the node itself, then those of everything below it. So what some chores come to can be counted or
collected over the nodes, without following the walk.
-/

namespace Pipework

/-- The chore of a node apart from its redirects, if there is one. -/
def Graph.ownChore? (above : Lineage) : Graph → Option Chore
  | .leaf number command r => some (.start (.leaf number command r) above)
  | .pipe .. => some (.edge above.place)
  | .group .. => none
  | .unknown _ name => some (.refuse (.unknownNode name))
  | .stray held => some (.refuse (.noNode held.it.typeName))

/-- The chores of a node itself, without those of the graphs below it. -/
def Graph.ownChores (above : Lineage) (n : Graph) : List Chore :=
  Chore.ofRedirects above.place n.redirects ++ (n.ownChore? above).toList

/-- The targets of all redirects of a graph, in the order of its nodes. -/
def Graph.targets (g : Graph) : List Target := g.nodes.flatMap fun n => n.redirects.items.map (·.2.it)

namespace Chore

/-- Some chores are those of some nodes, one node after the other, wherever each of them stands. -/
inductive OfNodes : List Chore → List Graph → Prop where
  | nil : OfNodes [] []
  | cons (n : Graph) (above : Lineage) {chores : List Chore} {nodes : List Graph}
      (rest : OfNodes chores nodes) : OfNodes (n.ownChores above ++ chores) (n :: nodes)

namespace OfNodes

variable {chores later : List Chore} {nodes others : List Graph}

theorem append (first : OfNodes chores nodes) (second : OfNodes later others) :
    OfNodes (chores ++ later) (nodes ++ others) := by
  induction first with
  | nil => exact second
  | cons n above rest ih =>
    rw [List.append_assoc]
    exact .cons n above ih

private theorem redirects (owner : Graph) (above : Lineage) (r : Redirects)
    (attached : ∀ s g, r.attached? s = some g → ∀ l, OfNodes (g.chores l) g.nodes) :
    OfNodes (Graph.choresOfRedirects owner above r) (Graph.nodesOfRedirects r) := by
  have target (s : Stream) : OfNodes
      (Graph.choresOfTarget? ((.attached s, owner) :: above) (r.get s))
      (Graph.nodesOfTarget? (r.get s)) := by
    cases found : r.attached? s with
    | none =>
      rw [choresOfTarget?_of_none _ found]
      unfold Redirects.attached? at found
      cases isSet : r.get s with
      | none => exact .nil
      | some t =>
        obtain ⟨label, target⟩ := t
        rw [isSet] at found
        cases target <;> first | exact .nil | cases found
    | some g =>
      rw [choresOfTarget?_of_attached _ found]
      have below := attached s g found ((.attached s, owner) :: above)
      obtain ⟨⟨label, target⟩, isSet, leads⟩ := Option.bind_eq_some_iff.mp found
      rw [isSet]
      cases target <;> cases leads
      exact below
  have all := ((target .stdin).append (target .stdout)).append (target .stderr)
  rw [List.append_assoc] at all
  obtain ⟨stdin, stdout, stderr, label⟩ := r
  exact all

private theorem members (owner : Graph) (above : Lineage) (index : Nat) (members : List Graph)
    (inMembers : ∀ g ∈ members, ∀ l, OfNodes (g.chores l) g.nodes) :
    OfNodes (Graph.choresOfMembers owner above index members) (Graph.nodesOfAll members) := by
  induction members generalizing index with
  | nil => exact .nil
  | cons g rest ih =>
    exact (inMembers g List.mem_cons_self _).append
      (ih (index + 1) fun g member => inMembers g (List.mem_cons_of_mem _ member))

/-- The chores of a graph are those of its nodes. -/
theorem ofGraph (g : Graph) (above : Lineage) : OfNodes (g.chores above) g.nodes := by
  induction g using Graph.induction generalizing above with
  | leaf number command r attached =>
    rw [Graph.chores, List.append_cons]
    exact .cons (.leaf number command r) above (redirects _ above r attached)
  | pipe number left right r inLeft inRight attached =>
    have below := ((inLeft ((.left, .pipe number left right r) :: above)).append
      (inRight ((.right, .pipe number left right r) :: above))).append
      (redirects (.pipe number left right r) above r attached)
    rw [List.append_assoc] at below
    rw [Graph.chores, List.append_cons]
    exact .cons (.pipe number left right r) above below
  | group number label ms r inMembers attached =>
    have below := (members (.group number label ms r) above 0 ms inMembers).append
      (redirects (.group number label ms r) above r attached)
    have own := OfNodes.cons (.group number label ms r) above below
    rw [Graph.ownChores, Graph.ownChore?, Option.toList_none, List.append_nil] at own
    exact own
  | unknown number name => exact .cons (.unknown number name) above .nil
  | stray held => exact .cons (.stray held) above .nil

/-- What is picked from each node's own chores is picked from all. -/
theorem filterMap_eq (ofNodes : OfNodes chores nodes) {β : Type} {pick : Chore → Option β}
    {own : Graph → List β} (each : ∀ n above, (Graph.ownChores above n).filterMap pick = own n) :
    chores.filterMap pick = nodes.flatMap own := by
  induction ofNodes with
  | nil => rfl
  | cons n above rest ih => rw [List.filterMap_append, each, ih, List.flatMap_cons]

/-- Chores of a kind of which a node has at most one are as many as the nodes that have it. -/
theorem countP_eq (ofNodes : OfNodes chores nodes) {p : Chore → Bool} {q : Graph → Bool}
    (each : ∀ n above, (Graph.ownChores above n).countP p = if q n then 1 else 0) :
    chores.countP p = nodes.countP q := by
  induction ofNodes with
  | nil => rfl
  | cons n above rest ih => rw [List.countP_append, each, ih, List.countP_cons, Nat.add_comm]

/-- A value in the place of a node is a chore that gives up. -/
theorem stray_mem (ofNodes : OfNodes chores nodes) {held : Item} (member : .stray held ∈ nodes) :
    .refuse (.noNode held.it.typeName) ∈ chores := by
  induction ofNodes with
  | nil => cases member
  | cons n above rest ih =>
    rcases List.mem_cons.mp member with rfl | later
    · exact List.mem_append_left _ (List.mem_singleton_self _)
    · exact List.mem_append_right _ (ih later)

end OfNodes

/-- The target of the redirect that a chore serves. -/
def target? : Chore → Option Target
  | redirect _ _ target => some target
  | _ => none

/-- Whether a chore makes the pipe of a pipe node. -/
def isEdge : Chore → Bool
  | edge _ => true
  | _ => false

theorem filterMap_target? (g : Graph) (above : Lineage) :
    (g.chores above).filterMap target? = g.targets := by
  refine (OfNodes.ofGraph g above).filterMap_eq fun n above => ?_
  have last : (n.ownChore? above).toList.filterMap target? = [] := by cases n <;> rfl
  rw [Graph.ownChores, List.filterMap_append, last, List.append_nil, ofRedirects, List.filterMap_map]
  exact congrFun List.filterMap_eq_map n.redirects.items

theorem countP_isEdge (g : Graph) (above : Lineage) :
    (g.chores above).countP isEdge = g.nodes.countP Graph.isPipe := by
  refine (OfNodes.ofGraph g above).countP_eq fun n above => ?_
  have first : (ofRedirects above.place n.redirects).countP isEdge = 0 := by
    refine List.countP_eq_zero.mpr fun c member => ?_
    obtain ⟨item, _, rfl⟩ := List.mem_map.mp member
    exact Bool.false_ne_true
  rw [Graph.ownChores, List.countP_append, first, Nat.zero_add]
  cases n <;> rfl

end Chore

end Pipework
