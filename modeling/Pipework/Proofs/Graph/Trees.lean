import Mathlib.Data.List.Nodup
import Pipework.Proofs.Graph.Builders
import Pipework.Value.Join

/-!
# The builders make trees

A caller builds graphs from commands and new leaves, and uses what he has got, and any part of it, again
and again. `Stock` is everything that he has got so far. A node is known by its number. However the stock
came about, every graph in it is a tree, and wherever a node shows up, it is the same node
(`Stock.Reached.sound`). The main theorem is `builders_make_trees`: what a call makes is a tree in which
the older nodes are as they were, and a call that would put a node in two places is refused.
-/

namespace Pipework

namespace Graph

/-- A call of one of the builders. -/
inductive Call where
  | pipe (left right : Item)
  | parallel (members : List Item)
  | redirect (graph : Item) (values : RedirectValues) (append : Bool)
  | pipeline (stages : List Item) (values : RedirectValues) (append : Bool)
  /-- An operator between two graphs: one joins them by a pipe, the other to a group. -/
  | join (j : Join) (left right : Item)

namespace Call

/-- What a call does. -/
def run : Call → Building Graph
  | pipe left right => pipeInto left right
  | parallel members => Graph.parallel members
  | redirect graph values append => Graph.redirect graph values append
  | pipeline stages values append => Graph.pipeline stages values append
  | join .either left right => pipeInto left right
  | join .both left right => Graph.parallel [left, right]

/-- What a call is given. -/
def items : Call → List Item
  | pipe left right => [left, right]
  | parallel members => members
  | redirect graph values _ => graph :: values.items
  | pipeline stages values _ => stages ++ values.items
  | join _ left right => [left, right]

/-- The graphs that a call puts into one. A group is made of the members of groups that are taken apart. -/
def parts : Call → List Graph
  | pipe left right => left.graphs ++ right.graphs
  | parallel members => (members.flatMap Item.graphs).flatMap flatten
  | redirect graph values _ => graph.graphs ++ values.items.flatMap Item.graphs
  | pipeline stages values _ => stages.flatMap Item.graphs ++ values.items.flatMap Item.graphs
  | join .either left right => left.graphs ++ right.graphs
  | join .both left right => ([left, right].flatMap Item.graphs).flatMap flatten

/-- What a call makes has grown out of what it was given, where no node stood twice. -/
theorem yields {old : List Graph} {n : Nat} (older : ∀ a ∈ old, a.number < n) (c : Call)
    (brings : ∀ i ∈ c.items, i.BringsGrown old n n) :
    c.run.Yields n fun g n' => g.Grown old n n' ∧ Distinct c.parts := by
  have start := Nat.le_refl n
  have whole {made : Building Graph} {parts : List Graph}
      (yields : made.Yields n fun g n' => g.Grown old n n' ∧ (nodesOfAll parts).Sublist g.nodes) :
      made.Yields n fun g n' => g.Grown old n n' ∧ Distinct parts :=
    yields.mono fun g n' _ ⟨grown, sublist⟩ => ⟨grown, (distinct_singleton.mpr grown.isTree).of_sublist
      (by rw [nodesOfAll_singleton]; exact sublist)⟩
  have values (given : List Item) {values : RedirectValues}
      (brings : ∀ i ∈ given ++ values.items, i.BringsGrown old n n) (s : Stream) :
      (values.get s).BringsGrown old n n :=
    brings _ (List.mem_append_right _ (List.mem_map_of_mem (by cases s <;> decide)))
  cases c with
  | pipe left right =>
    exact whole (yields_pipeInto older start (brings left (by simp [items])) (brings right (by simp [items])))
  | parallel members => exact whole (yields_parallel older start brings)
  | redirect graph given append =>
    exact yields_redirect older start (brings graph List.mem_cons_self) (values [graph] brings) append
  | pipeline stages given append =>
    exact yields_pipeline older start (fun stage member => brings stage (List.mem_append_left _ member))
      (values stages brings) append
  | join j left right =>
    cases j with
    | either =>
      exact whole (yields_pipeInto older start (brings left (by simp [items])) (brings right (by simp [items])))
    | both => exact whole (yields_parallel older start brings)

end Call

end Graph

/-! ## What a caller has got -/

/-- The graphs that a caller has got so far, and the number of the next new object. -/
structure Stock where
  graphs : List Graph
  next : Nat

/-- All graphs that a call is given are graphs of the stock or parts of such graphs. -/
def Graph.Call.Uses (c : Graph.Call) (stock : Stock) : Prop :=
  ∀ i ∈ c.items, ∀ g, i.it.brings? = some g → g ∈ Graph.nodesOfAll stock.graphs

namespace Stock

/-- A stock that comes about by making leaves and by calls of the builders. -/
inductive Reached : Stock → Prop
  | empty (n : Nat) : Reached ⟨[], n⟩
  /-- Other objects are made, or a call fails. -/
  | other {graphs : List Graph} {n n' : Nat} (before : Reached ⟨graphs, n⟩) (later : n ≤ n') :
    Reached ⟨graphs, n'⟩
  | leaf {graphs : List Graph} {n : Nat} (before : Reached ⟨graphs, n⟩) (command : Item) (r : Redirects)
      (plain : r.graphs = []) : Reached ⟨.leaf n command r :: graphs, n + 1⟩
  | call {graphs : List Graph} {n n' : Nat} {g : Graph} (before : Reached ⟨graphs, n⟩) (c : Graph.Call)
      (uses : c.Uses ⟨graphs, n⟩) (made : c.run.run n = .ok (g, n')) : Reached ⟨g :: graphs, n'⟩

/-- What holds of every stock that can be reached. -/
structure Sound (stock : Stock) : Prop where
  trees : ∀ g ∈ stock.graphs, g.IsTree
  known : ∀ a ∈ Graph.nodesOfAll stock.graphs, a.IsKnown
  older : ∀ a ∈ Graph.nodesOfAll stock.graphs, a.number < stock.next
  /-- A number stands for one node, in whatever graphs the node is. -/
  single : ∀ a ∈ Graph.nodesOfAll stock.graphs, ∀ b ∈ Graph.nodesOfAll stock.graphs,
    a.number = b.number → a = b

variable {graphs : List Graph} {n n' : Nat} {g : Graph}

/-- In what has grown, an older node is what it was. -/
theorem Sound.unchanged (sound : Sound ⟨graphs, n⟩) (grown : g.Grown (Graph.nodesOfAll graphs) n n') :
    ∀ a ∈ Graph.nodesOfAll graphs, ∀ b ∈ g.nodes, a.number = b.number → a = b := by
  intro a isOld b member same
  rcases grown.origin b member with before | ⟨new, -⟩
  · exact sound.single a isOld b before same
  · have less : a.number < n := sound.older a isOld
    omega

/-- A stock stays sound when something is added that has grown out of it. -/
theorem Sound.add (sound : Sound ⟨graphs, n⟩) (later : n ≤ n')
    (grown : g.Grown (Graph.nodesOfAll graphs) n n') : Sound ⟨g :: graphs, n'⟩ where
  trees h member := by
    rcases List.mem_cons.mp member with rfl | before
    · exact grown.isTree
    · exact sound.trees h before
  known a member := by
    rcases List.mem_append.mp member with new | before
    · exact grown.known a new
    · exact sound.known a before
  older a member := by
    rcases List.mem_append.mp member with new | before
    · exact grown.number_lt sound.older later a new
    · exact Nat.lt_of_lt_of_le (sound.older a before) later
  single a member b member' same := by
    rcases List.mem_append.mp member with new | before <;>
      rcases List.mem_append.mp member' with new' | before'
    · exact List.inj_on_of_nodup_map grown.isTree new new' same
    · exact (sound.unchanged grown b before' a new same.symm).symm
    · exact sound.unchanged grown a before b new' same
    · exact sound.single a before b before' same

/-- What a call is given from a sound stock counts as grown out of it. -/
theorem Sound.brings (sound : Sound ⟨graphs, n⟩) {c : Graph.Call} (uses : c.Uses ⟨graphs, n⟩) :
    ∀ i ∈ c.items, i.BringsGrown (Graph.nodesOfAll graphs) n n := by
  intro i isItem h isGraph
  obtain ⟨g, inStock, inGraph⟩ := Graph.mem_nodesOfAll.mp (uses i isItem h isGraph)
  have sublist := Graph.nodes_sublist inGraph
  have known {a : Graph} (member : a ∈ h.nodes) : a ∈ Graph.nodesOfAll graphs :=
    Graph.mem_nodesOfAll.mpr ⟨g, inStock, sublist.subset member⟩
  exact ⟨(sound.trees g inStock).sublist (sublist.map _), fun a member => sound.known a (known member),
    fun a member => .inl (known member)⟩

/-- Every stock that can be reached is sound. -/
theorem Reached.sound {stock : Stock} (reached : stock.Reached) : stock.Sound := by
  induction reached with
  | empty n => exact ⟨nofun, nofun, nofun, nofun⟩
  | other _ later sound =>
    exact ⟨sound.trees, sound.known, fun a member => Nat.lt_of_lt_of_le (sound.older a member) later,
      sound.single⟩
  | leaf _ command r plain sound =>
    exact sound.add (Nat.le_succ _) (Graph.grown_leaf sound.older command r plain (Nat.le_refl _))
  | call _ c uses made sound =>
    obtain ⟨later, grown, -⟩ := (c.yields sound.older (sound.brings uses)).ok made
    exact sound.add later grown

end Stock

/-- **The builders make trees.** However a caller has come by the graphs that he has, each of them
contains every node once, and what stands under one number is one node in all of them. What a further
call makes contains every node once again, and its older nodes are the ones that they were. If a node
stands twice among the graphs that a call would put together, the call is refused. -/
theorem builders_make_trees {stock : Stock} (reached : stock.Reached) {c : Graph.Call}
    (uses : c.Uses stock) :
    ((∀ g ∈ stock.graphs, g.IsTree) ∧
      ∀ a ∈ Graph.nodesOfAll stock.graphs, ∀ b ∈ Graph.nodesOfAll stock.graphs,
        a.number = b.number → a = b) ∧
    (∀ g n, c.run.run stock.next = .ok (g, n) →
      g.IsTree ∧ ∀ a ∈ Graph.nodesOfAll stock.graphs, ∀ b ∈ g.nodes, a.number = b.number → a = b) ∧
    (¬ Graph.Distinct c.parts → ∃ e, c.run.run stock.next = .error e ∧ e.IsRefusal) := by
  have sound := reached.sound
  have yields := c.yields sound.older (sound.brings uses)
  refine ⟨⟨sound.trees, sound.single⟩, fun g n made => ?_, fun shared => ?_⟩
  · obtain ⟨-, grown, -⟩ := yields.ok made
    exact ⟨grown.isTree, sound.unchanged grown⟩
  · cases ran : c.run.run stock.next with
    | ok done => exact absurd (yields.ok ran).2.2 shared
    | error e => exact ⟨e, rfl, yields.error ran⟩

private theorem letter_ne_nil (c : Char) : [Rune.char c] ≠ [] := List.cons_ne_nil _ _

/-- A command of one word. -/
private def word (c : Char) : Item :=
  ⟨.constant "command", .command { program := [.char c], program_ne_nil := letter_ne_nil c } []⟩

/-- `a` piped into `b`. -/
private def pair : Graph := .pipe 2 (.leaf 0 (word 'a') {}) (.leaf 1 (word 'b') {}) {}

/-- The same two leaves in a new pipe, whose errors go to `c`. -/
private def redirectedPair : Graph :=
  .pipe 6 (.leaf 0 (word 'a') {}) (.leaf 1 (word 'b') {})
    { stderr := some ⟨.own 4, .graph (.leaf 3 (word 'c') {})⟩, label := .own 5 }

private def pairs : Stock := ⟨[redirectedPair, pair], 7⟩

private theorem pairs_reached : pairs.Reached := by
  have first : Stock.Reached ⟨[pair], 3⟩ := by
    refine .call (.empty 0) (.join .either (word 'a') (word 'b')) ?_ rfl
    intro i given g brings
    simp only [Graph.Call.items, List.mem_cons, List.not_mem_nil, or_false] at given
    rcases given with rfl | rfl <;> cases brings
  refine .call first (.redirect pair.toItem { stderr := word 'c' } false) ?_ rfl
  intro i given g brings
  simp only [Graph.Call.items, RedirectValues.items, Stream.all, List.map_cons, List.map_nil, List.mem_cons,
    List.not_mem_nil, or_false] at given
  rcases given with rfl | rfl | rfl | rfl <;> cases brings
  exact List.mem_append_left _ (Graph.self_mem_nodes pair)

/-- A pipe and the same pipe with a redirect share their leaves: one cannot be piped into the other. -/
theorem pipe_of_shared_leaves_refused :
    pairs.Reached ∧ Graph.Call.Uses (.pipe pair.toItem redirectedPair.toItem) pairs ∧
      ¬ Graph.Distinct [pair, redirectedPair] ∧ redirectedPair.IsTree ∧
      ∃ e, (Graph.pipeInto pair.toItem redirectedPair.toItem).run 7 = .error e ∧ e.IsRefusal := by
  have uses : Graph.Call.Uses (.pipe pair.toItem redirectedPair.toItem) pairs := by
    intro i given g brings
    simp only [Graph.Call.items, List.mem_cons, List.not_mem_nil, or_false] at given
    rcases given with rfl | rfl <;> cases brings
    · exact Graph.mem_nodesOfAll.mpr ⟨pair, .tail _ (.head _), Graph.self_mem_nodes pair⟩
    · exact Graph.mem_nodesOfAll.mpr ⟨redirectedPair, .head _, Graph.self_mem_nodes redirectedPair⟩
  have shared : ¬ Graph.Distinct [pair, redirectedPair] := by decide
  obtain ⟨⟨trees, -⟩, -, refused⟩ := builders_make_trees pairs_reached uses
  exact ⟨pairs_reached, uses, shared, trees redirectedPair (.head _), refused shared⟩

end Pipework
