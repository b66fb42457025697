import Pipework.Proofs.Graph.Plain

/-!
# Joining several graphs

Joining stages by pipes, from left to right, asks that the ends that meet are free and that no node stands twice in
the whole. What comes of it is told by `Chained`: it can be joined again from another node in the place of the first,
and it can be taken apart at the last stage.
-/

namespace Pipework

namespace Graph

/-- Join graphs by pipes, left to right; there has to be one at least. -/
def joinAll : List Item → Building Graph
  | [] => throw .noStages
  | first :: rest => do chain (← ofItem first) rest

/-- Items are joined to a graph, one after the other, from a number on. -/
inductive Chained : Graph → Nat → List Item → Graph → Nat → Prop
  | done (g : Graph) (n : Nat) : Chained g n [] g n
  | pipe {g h made : Graph} {n m n' : Nat} {i : Item} {rest : List Item} (becomes : Becomes i n h m)
      (output : g.boundary .stdout = none) (input : h.boundary .stdin = none)
      (later : Chained (.pipe m g h {}) (m + 1) rest made n') : Chained g n (i :: rest) made n'

/-- The graphs that some items are. -/
def partsOf (items : List Item) : List Graph := items.flatMap fun i => i.part?.toList

theorem part?_toItem {g : Graph} (isNode : g.stray? = none) : g.toItem.part? = some g := by
  cases g <;> first | rfl | cases isNode

/-- A graph as an item is as old as its nodes. -/
theorem isOlder_toItem {g : Graph} {n : Nat} (whole : g.Whole) (older : ∀ a ∈ g.nodes, a.number < n) :
    g.toItem.IsOlder n := by
  intro h isPart
  cases (part?_toItem (whole g (self_mem_nodes g))).symm.trans isPart
  exact ⟨whole, older⟩

/-- A new pipe is a new node. -/
theorem draws_pipe {up down : Graph} (m : Nat) : Draws m (m + 1) [up, down] [.pipe m up down {}] := by
  refine ⟨Nat.le_succ m, [m], List.nodup_cons.mpr ⟨List.not_mem_nil, .nil⟩, fun k member => ?_, ?_⟩
  · cases List.mem_singleton.mp member
    exact ⟨Nat.le_refl m, Nat.lt_succ_self m⟩
  · have nodes : numbersOf [.pipe m up down {}] = m :: numbersOf [up, down] := by
      simp [numbersOf, nodesOfAll, nodes, number, nodesOfRedirects, nodesOfTarget?]
    rw [nodes]
    exact .refl _

theorem Adds.draws {n n' : Nat} {parts graphs : List Graph} (adds : Adds n n' parts graphs) :
    Draws n n' parts graphs := by
  refine ⟨adds.later, _, List.nodup_range', fun k member => ?_, adds.numbers⟩
  rw [List.mem_range'_1] at member
  have := adds.later
  omega

namespace Chained

variable {g made : Graph} {n n' : Nat} {items : List Item}

theorem later (chained : Chained g n items made n') : n ≤ n' := by
  induction chained with
  | done => exact Nat.le_refl _
  | pipe becomes output input rest ih => exact Nat.le_trans becomes.later (Nat.le_trans (Nat.le_succ _) ih)

/-- What is joined is made of the first graph, of the items, and of new nodes. -/
theorem draws (chained : Chained g n items made n') : Draws n n' (g :: partsOf items) [made] := by
  induction chained with
  | done g n => exact .refl n [g]
  | @pipe g h made n m n' i rest becomes output input later ih =>
    have first : Draws n (m + 1) (g :: i.part?.toList) [.pipe m g h {}] :=
      ((Draws.refl n [g]).append becomes.adds.draws).trans (draws_pipe m)
    exact (first.append (.refl (m + 1) (partsOf rest))).trans ih

/-- The first graph stands in what is joined. -/
theorem sublist (chained : Chained g n items made n') : g.nodes.Sublist made.nodes := by
  induction chained with
  | done => exact .refl _
  | pipe becomes output input later ih =>
    refine List.Sublist.trans ?_ ih
    rw [nodes, List.append_assoc]
    exact List.Sublist.cons _ (List.sublist_append_left _ _)

/-- What is joined is taken apart at the last item. -/
theorem split_last {mid : List Item} {i : Item} (chained : Chained g n (mid ++ [i]) made n') :
    ∃ left m last k, Chained g n mid left m ∧ Becomes i m last k ∧ left.boundary .stdout = none ∧
      last.boundary .stdin = none ∧ made = .pipe k left last {} ∧ n' = k + 1 := by
  induction mid generalizing g n with
  | nil =>
    cases chained with
    | pipe becomes output input later =>
      cases later
      exact ⟨_, _, _, _, .done _ _, becomes, output, input, rfl, rfl⟩
  | cons j rest ih =>
    cases chained with
    | pipe becomes output input later =>
      obtain ⟨left, m, last, k, before, final, meets, meets', same, next⟩ := ih later
      exact ⟨left, m, last, k, .pipe becomes output input before, final, meets, meets', same, next⟩

/-- One more item is joined at the end. -/
theorem snoc {left last : Graph} {m k : Nat} {i : Item} (chained : Chained g n items left m) (becomes : Becomes i m last k)
    (output : left.boundary .stdout = none) (input : last.boundary .stdin = none) :
    Chained g n (items ++ [i]) (.pipe k left last {}) (k + 1) := by
  induction chained with
  | done => exact .pipe becomes output input (.done _ _)
  | pipe first meets meets' later ih => exact .pipe first meets meets' (ih becomes output)

/-- The same items can be joined to another graph, if its output is free as well. What relates the two graphs, and
goes over to pipes, relates what comes of them. -/
theorem again {R : Graph → Graph → Prop} (free : ∀ g h, R g h → h.boundary .stdout = g.boundary .stdout)
    (pipe : ∀ g g' h h' k k', R g g' → h.Alike h' → R (.pipe k g h {}) (.pipe k' g' h' {}))
    (chained : Chained g n items made n') {g' : Graph} (related : R g g') (m : Nat) :
    ∃ made' m', Chained g' m items made' m' ∧ R made made' := by
  induction chained generalizing g' m with
  | done g n => exact ⟨g', m, .done g' m, related⟩
  | pipe becomes output input later ih =>
    obtain ⟨h', m₁, becomes'⟩ := becomes.again m
    have alike := (becomes.alike becomes').1
    obtain ⟨made', m', chained', related'⟩ := ih (pipe _ _ _ _ _ m₁ related alike) (m₁ + 1)
    exact ⟨made', m', .pipe becomes' ((free _ _ related).trans output) (alike.boundary ▸ input) chained', related'⟩

end Chained

/-! ## Running -/

section Run

variable {g made : Graph} {n n' : Nat} {items : List Item}

/-- What is joined was joined item by item, and no node stands twice in it. -/
theorem chained_of_run (older : g.toItem.IsOlder n) (isNode : g.stray? = none) (olderItems : ∀ i ∈ items, i.IsOlder n)
    (ran : (chain g items).run n = .ok (made, n')) :
    Chained g n items made n' ∧ (items ≠ [] ∨ Distinct [g] → Distinct [made]) := by
  induction items generalizing g n with
  | nil =>
    cases ran
    exact ⟨.done _ _, fun either => either.resolve_left (not_not.mpr rfl)⟩
  | cons i rest ih =>
    obtain ⟨joined, m, ranPipe, ranRest⟩ := Building.bind_ok ran
    have olderFirst := olderItems i List.mem_cons_self
    obtain ⟨later, up, down, k, pipes, rfl, rfl⟩ := (yields_pipes older olderFirst).ok ranPipe
    have olderJoined := isOlder_joined older olderFirst pipes
    obtain ⟨chained, distinct⟩ := ih olderJoined rfl
      (fun j member => (olderItems j (List.mem_cons_of_mem _ member)).mono later) ranRest
    obtain ⟨⟨m₁, isUp, isDown⟩, output, input, apart⟩ := pipes
    have isGraph : g.toItem.part? = some g := part?_toItem isNode
    have same : up = g ∧ m₁ = n := by
      cases isUp with
      | part isPart => exact ⟨Option.some.inj (isPart.symm.trans isGraph), rfl⟩
      | leaf isCommand =>
        rw [Item.part?, isCommand] at isGraph
        cases isGraph
    obtain ⟨rfl, rfl⟩ := same
    refine ⟨.pipe isDown output input chained, fun _ => distinct (.inr ?_)⟩
    have numbers : ∀ a ∈ nodesOfAll [up, down], a.number < k := by
      intro a member
      rw [nodesOfAll, nodesOfAll_singleton] at member
      rcases List.mem_append.mp member with inUp | inDown
      · exact Nat.lt_of_lt_of_le ((older up isGraph).2 a inUp) isDown.later
      · exact isDown.older olderFirst a inDown
    exact ((draws_pipe k).distinct numbers).mpr apart

/-- What can be joined item by item is joined, if no node stands twice in it. -/
theorem Chained.ran (chained : Chained g n items made n') (older : g.toItem.IsOlder n) (isNode : g.stray? = none)
    (olderItems : ∀ i ∈ items, i.IsOlder n) (distinct : Distinct [made]) :
    (chain g items).run n = .ok (made, n') ∧ made.Whole ∧ ∀ a ∈ made.nodes, a.number < n' := by
  induction chained with
  | done => exact ⟨rfl, older _ (part?_toItem isNode)⟩
  | @pipe g h made n m n' i rest becomes output input later ih =>
    have olderFirst := olderItems i List.mem_cons_self
    have apart : Distinct [g, h] := by
      refine distinct.of_sublist ?_
      rw [nodesOfAll, nodesOfAll_singleton, nodesOfAll_singleton]
      refine List.Sublist.trans ?_ later.sublist
      simp [nodes, nodesOfRedirects, nodesOfTarget?]
    have pipes : Pipes g.toItem i n g h m := ⟨⟨n, .part (part?_toItem isNode), becomes⟩, output, input, apart⟩
    have next := Nat.le_trans becomes.later (Nat.le_succ m)
    rw [chain, Building.run_bind (pipes.ran older olderFirst)]
    exact ih (isOlder_joined older olderFirst pipes) rfl
      (fun j member => (olderItems j (List.mem_cons_of_mem _ member)).mono next) distinct

end Run

end Graph

end Pipework
