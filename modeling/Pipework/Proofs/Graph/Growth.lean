import Pipework.Proofs.Graph.Building

/-!
# What the builders make of nodes

Each builder takes the nodes of the graphs that it is given and adds nodes of its own, which have new
numbers. It refuses where a node would stand twice. So what it makes grew out of the nodes that there
were before (`Graph.Grown`), and wherever it makes something, no node stood twice among the graphs that
it was given.
-/

namespace Pipework

/-- The graphs that a value brings along. -/
def Item.graphs (i : Item) : List Graph := i.it.brings?.toList

/-- What is given for the three streams. -/
def RedirectValues.items (values : RedirectValues) : List Item := Stream.all.map values.get

namespace Graph

/-- Whether a node is of one of the kinds that the builders make. -/
def IsKnown : Graph → Prop
  | .leaf .. | .pipe .. | .group .. => True
  | _ => False

/-- No node stands twice in a graph. -/
def IsTree (g : Graph) : Prop := (g.nodes.map number).Nodup

/-- A graph in which every node stands once, and each is one of some older nodes or has a number from a
range. -/
structure Grown (old : List Graph) (n n' : Nat) (g : Graph) : Prop where
  isTree : g.IsTree
  known : ∀ a ∈ g.nodes, a.IsKnown
  origin : ∀ a ∈ g.nodes, a ∈ old ∨ n ≤ a.number ∧ a.number < n'

theorem IsKnown.isNode {g : Graph} (known : g.IsKnown) : g.stray? = none := by
  cases g <;> first | rfl | cases known

/-- A node of a known kind can be given other redirects. -/
theorem IsKnown.withRedirects {g : Graph} (known : g.IsKnown) (k : Nat) (r : Redirects) :
    ∃ g' inside, g.withRedirects? k r = some g' ∧ g'.IsKnown ∧ g'.number = k ∧
      g.nodes = g :: (inside ++ nodesOfRedirects g.redirects) ∧
      g'.nodes = g' :: (inside ++ nodesOfRedirects r) := by
  cases g with
  | leaf number command r' => exact ⟨_, [], rfl, trivial, rfl, rfl, rfl⟩
  | pipe number left right r' => exact ⟨_, left.nodes ++ right.nodes, rfl, trivial, rfl, rfl, rfl⟩
  | group number label members r' => exact ⟨_, nodesOfAll members, rfl, trivial, rfl, rfl, rfl⟩
  | _ => cases known

theorem distinct_singleton {g : Graph} : Distinct [g] ↔ g.IsTree := by
  rw [Distinct, nodesOfAll_singleton, IsTree]

/-! ## Growth -/

section Growth

variable {old : List Graph} {n₀ n n' : Nat} {g h : Graph}

theorem Grown.whole (grown : Grown old n₀ n g) : g.Whole := fun a member => (grown.known a member).isNode

theorem Grown.mono (grown : Grown old n₀ n g) (later : n ≤ n') : Grown old n₀ n' g :=
  ⟨grown.isTree, grown.known, fun a member =>
    (grown.origin a member).imp_right fun new => ⟨new.1, Nat.lt_of_lt_of_le new.2 later⟩⟩

theorem Grown.part (grown : Grown old n₀ n g) (member : h ∈ g.nodes) : Grown old n₀ n h :=
  have sublist := nodes_sublist member
  ⟨grown.isTree.sublist (sublist.map number), fun a isNode => grown.known a (sublist.subset isNode),
    fun a isNode => grown.origin a (sublist.subset isNode)⟩

variable (older : ∀ a ∈ old, a.number < n₀)
include older

theorem Grown.number_lt (grown : Grown old n₀ n g) (later : n₀ ≤ n) : ∀ a ∈ g.nodes, a.number < n :=
  fun a member => (grown.origin a member).elim
    (fun isOld => Nat.lt_of_lt_of_le (older a isOld) later) And.right

/-- A new node on top of nodes that are distinct. -/
theorem grown_node {below : List Graph} (nodes : g.nodes = g :: below) (known : g.IsKnown)
    (isNew : g.number = n) (from₀ : n₀ ≤ n) (distinct : (below.map number).Nodup)
    (parts : ∀ a ∈ below, ∃ h, Grown old n₀ n h ∧ a ∈ h.nodes) : Grown old n₀ (n + 1) g where
  isTree := by
    rw [IsTree, nodes, List.map_cons, List.nodup_cons]
    refine ⟨fun again => ?_, distinct⟩
    obtain ⟨a, member, same⟩ := List.mem_map.mp again
    obtain ⟨h, grown, inPart⟩ := parts a member
    have less := grown.number_lt older from₀ a inPart
    omega
  known a member := by
    rw [nodes] at member
    rcases List.mem_cons.mp member with rfl | inBelow
    · exact known
    · obtain ⟨h, grown, inPart⟩ := parts a inBelow
      exact grown.known a inPart
  origin a member := by
    rw [nodes] at member
    rcases List.mem_cons.mp member with rfl | inBelow
    · exact .inr (by omega)
    · obtain ⟨h, grown, inPart⟩ := parts a inBelow
      exact (grown.mono (Nat.le_succ n)).origin a inPart

theorem grown_leaf (command : Item) (r : Redirects) (plain : r.graphs = []) (from₀ : n₀ ≤ n) :
    Grown old n₀ (n + 1) (.leaf n command r) := by
  have nodes : Graph.nodes (.leaf n command r) = [.leaf n command r] := by
    rw [Graph.nodes, nodesOfRedirects_eq, plain]
    rfl
  exact grown_node older nodes trivial rfl from₀ List.nodup_nil nofun

end Growth

end Graph

/-! ## What items become -/

/-- Whatever graph an item brings has grown already. -/
def Item.BringsGrown (old : List Graph) (n n' : Nat) (i : Item) : Prop :=
  ∀ h, i.it.brings? = some h → h.Grown old n n'

theorem Item.BringsGrown.mono {old : List Graph} {n₀ n n' : Nat} {i : Item} (brings : i.BringsGrown old n₀ n)
    (later : n ≤ n') : i.BringsGrown old n₀ n' := fun h isGraph => (brings h isGraph).mono later

section Builders

variable {old : List Graph} {n₀ n : Nat} (older : ∀ a ∈ old, a.number < n₀)
include older

namespace Graph

theorem yields_ofCommand (from₀ : n₀ ≤ n) (command : Item) :
    (ofCommand command).Yields n fun g n' => Grown old n₀ n' g := by
  refine .bind .freshNumber fun k m _ made => ?_
  obtain ⟨rfl, rfl⟩ := made
  exact .pure (grown_leaf older command {} rfl from₀)

/-- An item becomes the graph that it brings, or a new leaf. -/
theorem yields_ofItem (from₀ : n₀ ≤ n) {i : Item} (brings : i.BringsGrown old n₀ n) :
    (ofItem i).Yields n fun g n' => Grown old n₀ n' g ∧ (i.graphs = [] ∨ i.graphs = [g]) := by
  obtain ⟨label, value⟩ := i
  cases value with
  | graph h => exact .pure ⟨brings h rfl, .inr rfl⟩
  | command c words => exact (yields_ofCommand older from₀ _).mono fun g n' _ grown => ⟨grown, .inl rfl⟩
  | _ => exact .throw fun m => ⟨_, rfl⟩

end Graph

end Builders

namespace Target

variable {old : List Graph} {n₀ n : Nat}

private theorem yields_fresh {t : Target} {result : Option (Labelled Target) → Nat → Prop}
    (holds : ∀ label n', n ≤ n' → result (some ⟨label, t⟩) n') : (fresh t).Yields n result :=
  .bind .freshLabel fun label m later _ => .pure (holds label m later)

/-- What is known of the target that an item becomes: it leads to the graph that the item brings, or to
one that has grown. -/
private structure Leads (old : List Graph) (n₀ n : Nat) (i : Item) (t? : Option (Labelled Target)) : Prop where
  grown : ∀ h, t?.bind (·.it.graph?) = some h → h.Grown old n₀ n
  brought : ∀ h, i.it.brings? = some h → t?.bind (·.it.graph?) = some h

private theorem Leads.nowhere {i : Item} {t? : Option (Labelled Target)} (noGraph : i.it.brings? = none)
    (other : t?.bind (·.it.graph?) = none) : Leads old n₀ n i t? := by
  constructor
  · intro h leads
    rw [other] at leads
    cases leads
  · intro h isGraph
    rw [noGraph] at isGraph
    cases isGraph

private theorem Leads.graph {i : Item} {g : Graph} (grown : g.Grown old n₀ n)
    (brings : ∀ h, i.it.brings? = some h → g = h) (label : Label) :
    Leads old n₀ n i (some ⟨label, .graph g⟩) := by
  constructor
  · rintro h ⟨⟩
    exact grown
  · intro h isGraph
    exact congrArg some (brings h isGraph)

/-- A target that is given is taken as it is. -/
private theorem yields_given {label : Label} {u : Target} (s : Stream) (append : Bool)
    (brings : Item.BringsGrown old n₀ n ⟨label, .target u⟩) :
    (ofItem? ⟨label, .target u⟩ s append).Yields n fun t? n' => Leads old n₀ n' ⟨label, .target u⟩ t? := by
  cases u with
  | graph g => exact .pure (.graph (brings g rfl) (by rintro h ⟨⟩; rfl) label)
  | file path append' =>
    cases s <;> cases append' <;>
      first | exact .pure (.nowhere rfl rfl) | exact .throw fun m => ⟨_, rfl⟩
  | _ => exact .pure (.nowhere rfl rfl)

/-- A redirect leads to the graph that the item brings, or to a new leaf. -/
theorem yields_ofItem? (older : ∀ a ∈ old, a.number < n₀) (from₀ : n₀ ≤ n) {i : Item}
    (brings : i.BringsGrown old n₀ n) (s : Stream) (append : Bool) :
    (ofItem? i s append).Yields n fun t? n' =>
      (∀ h, t?.bind (·.it.graph?) = some h → h.Grown old n₀ n') ∧
        ∀ h, i.it.brings? = some h → t?.bind (·.it.graph?) = some h := by
  suffices leads : (ofItem? i s append).Yields n fun t? n' => Leads old n₀ n' i t? from
    leads.mono fun t? n' _ leads => ⟨leads.grown, leads.brought⟩
  obtain ⟨label, value⟩ := i
  have plain {t : Target} (noGraph : value.brings? = none) (other : t.graph? = none) :
      (fresh t).Yields n fun t? n' => Leads old n₀ n' ⟨label, value⟩ t? :=
    yields_fresh fun _ _ _ => .nowhere noGraph other
  have refused {e : BuildError} (refusal : e.IsRefusal) : (throw e : Building (Option (Labelled Target))).Yields n
      fun t? n' => Leads old n₀ n' ⟨label, value⟩ t? := .throw refusal
  cases value with
  | none => exact .pure (.nowhere rfl rfl)
  | target u => exact yields_given s append brings
  | graph g =>
    exact yields_fresh fun label n' later =>
      .graph ((brings g rfl).mono later) (by rintro h ⟨⟩; rfl) label
  | command c words =>
    refine .bind (Graph.yields_ofCommand older from₀ _) fun leaf m _ grown => ?_
    exact yields_fresh fun label n' later => .graph (grown.mono later) (by rintro h ⟨⟩) label
  | bool b => exact refused fun m => ⟨_, rfl⟩
  | int z => exact plain rfl rfl
  | file descriptor => exact plain rfl rfl
  | bytes b =>
    unfold ofItem?
    dsimp only
    split
    · exact plain rfl rfl
    · exact refused fun m => ⟨_, rfl⟩
  | view b =>
    unfold ofItem?
    dsimp only
    split
    · exact .bind .freshLabel fun _ _ _ _ => yields_fresh fun _ _ _ => .nowhere rfl rfl
    · exact refused fun m => ⟨_, rfl⟩
  | _ =>
    unfold ofItem?
    dsimp only
    split
    · exact .bind .freshLabel fun _ _ _ _ => yields_fresh fun _ _ _ => .nowhere rfl rfl
    · split
      · exact plain rfl rfl
      · exact refused fun m => ⟨_, rfl⟩

end Target

end Pipework
