import Pipework.Proofs.Graph.Growth

/-!
# One lemma for each builder

What each builder yields when the graphs that it is given have grown: a graph that has grown, and with it
the news that no node stood twice among the graphs that it was given. Joining and grouping keep all these
nodes. Redirecting keeps all but the redirected node itself, in whose place a new one stands.
-/

namespace Pipework

namespace Graph

section Kept

variable {g h : Graph} {i : Item}

theorem nodesOfAll_graphs_sublist (becomes : i.graphs = [] ∨ i.graphs = [g]) :
    (nodesOfAll i.graphs).Sublist g.nodes := by
  rcases becomes with none | one
  · rw [none]
    exact List.nil_sublist _
  · simp [one, nodesOfAll_singleton]

theorem toItem_of_known (known : g.IsKnown) : g.toItem.graphs = [g] := by
  cases g <;> first | rfl | cases known

theorem mem_nodes_of_flatten (member : h ∈ flatten g) : h ∈ g.nodes := by
  unfold flatten at member
  split at member
  · split at member
    · exact List.mem_cons_of_mem _
        (List.mem_append_left _ (mem_nodesOfAll.mpr ⟨h, member, self_mem_nodes h⟩))
    · cases List.mem_singleton.mp member
      exact self_mem_nodes _
  · cases List.mem_singleton.mp member
    exact self_mem_nodes g

end Kept

section Builders

variable {old : List Graph} {n₀ n : Nat} (older : ∀ a ∈ old, a.number < n₀) (from₀ : n₀ ≤ n)
include older from₀

/-! ## Pipes and groups -/

theorem yields_pipeInto {left right : Item} (fromLeft : left.BringsGrown old n₀ n)
    (fromRight : right.BringsGrown old n₀ n) :
    (pipeInto left right).Yields n fun g n' => g.Grown old n₀ n' ∧
      (nodesOfAll (left.graphs ++ right.graphs)).Sublist g.nodes := by
  refine .bind (yields_ofItem older from₀ fromLeft) fun up m le ⟨upGrown, isUp⟩ => ?_
  refine .bind (yields_ofItem older (Nat.le_trans from₀ le) (fromRight.mono le))
    fun down m' le' ⟨downGrown, isDown⟩ => ?_
  have upGrown := upGrown.mono le'
  refine yields_free upGrown.whole fun _ => yields_free downGrown.whole fun _ => ?_
  have whole : ∀ g ∈ [up, down], g.Whole := by
    simpa using ⟨upGrown.whole, downGrown.whole⟩
  refine .bind (yields_checkDistinct whole) fun _ m'' _ ⟨same, distinct⟩ => ?_
  subst same
  refine .bind .freshNumber fun k m'' _ ⟨isNumber, isNext⟩ => ?_
  subst isNumber isNext
  have nodes : Graph.nodes (.pipe k up down {}) = .pipe k up down {} :: nodesOfAll [up, down] := by
    simp [Graph.nodes, nodesOfAll, nodesOfRedirects, nodesOfTarget?]
  refine .pure ⟨grown_node older nodes trivial rfl (Nat.le_trans from₀ (Nat.le_trans le le')) distinct
    fun a below => ?_, ?_⟩
  · obtain ⟨h, isPart, inPart⟩ := mem_nodesOfAll.mp below
    refine ⟨h, ?_, inPart⟩
    simp only [List.mem_cons, List.not_mem_nil, or_false] at isPart
    rcases isPart with rfl | rfl
    · exact upGrown
    · exact downGrown
  · have parts : nodesOfAll [up, down] = up.nodes ++ down.nodes := by simp [nodesOfAll]
    rw [nodes, nodesOfAll_append, parts]
    exact ((nodesOfAll_graphs_sublist isUp).append (nodesOfAll_graphs_sublist isDown)).cons _

private theorem yields_ofItems {items : List Item} (grown : ∀ i ∈ items, i.BringsGrown old n₀ n) :
    (items.mapM ofItem).Yields n fun graphs n' => (∀ g ∈ graphs, g.Grown old n₀ n') ∧
      (nodesOfAll ((items.flatMap Item.graphs).flatMap flatten)).Sublist
        (nodesOfAll (graphs.flatMap flatten)) := by
  induction items generalizing n with
  | nil => exact .pure ⟨nofun, .refl _⟩
  | cons i rest ih =>
    rw [List.mapM_cons]
    refine .bind (yields_ofItem older from₀ (grown i List.mem_cons_self)) fun g m le ⟨isGrown, becomes⟩ => ?_
    have later := ih (Nat.le_trans from₀ le) fun i member => (grown i (List.mem_cons_of_mem _ member)).mono le
    refine later.bind fun graphs m' le' ⟨allGrown, sublist⟩ => .pure ⟨fun h member => ?_, ?_⟩
    · rcases List.mem_cons.mp member with rfl | inRest
      · exact isGrown.mono le'
      · exact allGrown h inRest
    · simp only [List.flatMap_cons, List.flatMap_append, nodesOfAll_append]
      refine List.Sublist.append ?_ sublist
      rcases becomes with none | one
      · rw [none]
        exact List.nil_sublist _
      · simp [one]

theorem yields_parallel {members : List Item} (grown : ∀ i ∈ members, i.BringsGrown old n₀ n) :
    (parallel members).Yields n fun g n' => g.Grown old n₀ n' ∧
      (nodesOfAll ((members.flatMap Item.graphs).flatMap flatten)).Sublist g.nodes := by
  unfold parallel
  refine .check (e := .noMembers) (fun m => ⟨_, rfl⟩) fun _ => ?_
  refine (yields_ofItems older from₀ grown).bind fun graphs m le ⟨allGrown, sublist⟩ => ?_
  have flat : ∀ h ∈ graphs.flatMap flatten, h.Grown old n₀ m := fun h member => by
    obtain ⟨g, isGraph, inGraph⟩ := List.mem_flatMap.mp member
    exact (allGrown g isGraph).part (mem_nodes_of_flatten inGraph)
  refine .bind (yields_checkDistinct fun h member => (flat h member).whole) fun _ m' _ ⟨same, distinct⟩ => ?_
  subst same
  refine .bind .freshNumber fun k m' _ ⟨isNumber, isNext⟩ => ?_
  subst isNumber isNext
  have nodes (label : Label) : Graph.nodes (.group k label (graphs.flatMap flatten) {}) =
      .group k label (graphs.flatMap flatten) {} :: nodesOfAll (graphs.flatMap flatten) := by
    simp [Graph.nodes, nodesOfRedirects, nodesOfTarget?]
  refine .pure ⟨grown_node older (nodes _) trivial rfl (Nat.le_trans from₀ le) distinct fun a below => ?_, ?_⟩
  · obtain ⟨h, isPart, inPart⟩ := mem_nodesOfAll.mp below
    exact ⟨h, flat h isPart, inPart⟩
  · rw [nodes]
    exact sublist.cons _

end Builders

/-! ## Redirects -/

section Added

variable {added r own : Redirects}

/-- Of the redirects that are set one after the other, the last counts for its stream. -/
private theorem get_foldl_items (r base : Redirects) (s : Stream) :
    (r.items.foldl (fun r (s, t) => r.set s t) base).get s = (r.get s).or (base.get s) := by
  obtain ⟨stdin, stdout, stderr, label⟩ := r
  cases stdin <;> cases stdout <;> cases stderr <;> cases s <;> rfl

/-- New redirects over older ones count where there are any. -/
theorem yields_ofItems_append (own added : Redirects) (n : Nat) :
    (Redirects.ofItems (own.items ++ added.items)).Yields n fun r _ =>
      ∀ s, r.get s = (added.get s).or (own.get s) := by
  refine .bind .freshLabel fun label m _ _ => .pure fun s => ?_
  rw [List.foldl_append, get_foldl_items, get_foldl_items]
  cases own.get s <;> cases s <;> simp [Redirects.get]

/-- Where new redirects are added to free streams only, the graphs of both are attached. -/
private theorem nodesOfRedirects_perm (merged : ∀ s, r.get s = (added.get s).or (own.get s))
    (free : ∀ s, (added.get s).isSome → own.get s = none) :
    (nodesOfRedirects r).Perm (nodesOfRedirects own ++ nodesOfRedirects added) := by
  have one (s : Stream) :
      nodesOfTarget? (r.get s) = nodesOfTarget? (own.get s) ++ nodesOfTarget? (added.get s) := by
    rw [merged s]
    cases found : added.get s with
    | none => simp [nodesOfTarget?]
    | some t => rw [free s (by rw [found]; rfl)]; rfl
  simp only [nodesOfRedirects_get, one]
  classical
  refine List.perm_iff_count.mpr fun a => ?_
  simp only [List.count_append]
  omega

end Added

/-- What is known of the redirect of one stream: what it leads to, and that nothing was there before. -/
private structure Added (old : List Graph) (n₀ n : Nat) (node : Graph) (i : Item) (s : Stream)
    (t? : Option (Labelled Target)) : Prop where
  grown : ∀ h, t?.bind (·.it.graph?) = some h → h.Grown old n₀ n
  brought : ∀ h, i.it.brings? = some h → t?.bind (·.it.graph?) = some h
  free : t?.isSome → node.boundary s = none

private theorem Added.mono {old : List Graph} {n₀ n n' : Nat} {node : Graph} {i : Item} {s : Stream}
    {t? : Option (Labelled Target)} (added : Added old n₀ n node i s t?) (later : n ≤ n') :
    Added old n₀ n' node i s t? :=
  ⟨fun h leads => (added.grown h leads).mono later, added.brought, added.free⟩

/-- The graphs that come with redirects are among those that the redirects lead to. -/
private theorem graphs_sublist {added : Redirects} {values : RedirectValues}
    (brought : ∀ s h, (values.get s).it.brings? = some h → (added.get s).bind (·.it.graph?) = some h) :
    (nodesOfAll (values.items.flatMap Item.graphs)).Sublist (nodesOfAll added.graphs) := by
  have one (s : Stream) :
      (nodesOfAll (values.get s).graphs).Sublist (nodesOfTarget? (added.get s)) := by
    rw [nodesOfTarget?_eq, Item.graphs]
    cases isGraph : (values.get s).it.brings? with
    | none => exact List.nil_sublist _
    | some h => simp [brought s h isGraph]
  have items : values.items.flatMap Item.graphs =
      (values.get .stdin).graphs ++ (values.get .stdout).graphs ++ (values.get .stderr).graphs := by
    simp [RedirectValues.items, Stream.all]
  rw [items, nodesOfAll_append, nodesOfAll_append, ← nodesOfRedirects_eq, nodesOfRedirects_get]
  exact ((one .stdin).append (one .stdout)).append (one .stderr)

section Redirect

variable {old : List Graph} {n₀ n : Nat} (older : ∀ a ∈ old, a.number < n₀)
include older

private theorem yields_claim (from₀ : n₀ ≤ n) {node : Graph} (whole : node.Whole) {values : RedirectValues}
    {s : Stream} (brings : (values.get s).BringsGrown old n₀ n) (append : Bool) :
    (claim node values append s).Yields n fun t? n' => Added old n₀ n' node (values.get s) s t? := by
  refine (Target.yields_ofItem? older from₀ brings s append).bind fun t? m le ⟨grown, brought⟩ => ?_
  cases t? with
  | none => exact .pure ⟨grown, brought, nofun⟩
  | some t =>
    refine yields_free whole fun free => ?_
    cases leads : t.it.graph? with
    | none => exact .pure ⟨grown, brought, fun _ => free⟩
    | some other =>
      refine yields_free (grown other (by rw [Option.bind_some, leads])).whole fun _ => ?_
      exact .pure ⟨grown, brought, fun _ => free⟩

theorem yields_redirect (from₀ : n₀ ≤ n) {item : Item} {values : RedirectValues}
    (fromItem : item.BringsGrown old n₀ n) (fromValues : ∀ s, (values.get s).BringsGrown old n₀ n)
    (append : Bool) :
    (redirect item values append).Yields n fun g n' => g.Grown old n₀ n' ∧
      Distinct (item.graphs ++ values.items.flatMap Item.graphs) := by
  refine (yields_ofItem older from₀ fromItem).bind fun node m₁ le₁ ⟨grown, becomes⟩ => ?_
  have from₁ := Nat.le_trans from₀ le₁
  refine (yields_claim older from₁ grown.whole ((fromValues .stdin).mono le₁) append).bind
    fun stdin m₂ le₂ isStdin => ?_
  have le₂' := Nat.le_trans le₁ le₂
  refine (yields_claim older (Nat.le_trans from₀ le₂') grown.whole ((fromValues .stdout).mono le₂') append).bind
    fun stdout m₃ le₃ isStdout => ?_
  have le₃' := Nat.le_trans le₂' le₃
  refine (yields_claim older (Nat.le_trans from₀ le₃') grown.whole ((fromValues .stderr).mono le₃') append).bind
    fun stderr m₄ le₄ isStderr => ?_
  have le₄' := Nat.le_trans le₃' le₄
  have grown := grown.mono (Nat.le_trans le₂ (Nat.le_trans le₃ le₄))
  dsimp only
  generalize isAdded : ({ stdin, stdout, stderr } : Redirects) = added
  have claimed : ∀ s, Added old n₀ m₄ node (values.get s) s (added.get s) := by
    subst isAdded
    intro s
    cases s with
    | stdin => exact isStdin.mono (Nat.le_trans le₃ le₄)
    | stdout => exact isStdout.mono le₄
    | stderr => exact isStderr
  have parts : (nodesOfAll (item.graphs ++ values.items.flatMap Item.graphs)).Sublist
      (nodesOfAll (node :: added.graphs)) := by
    rw [nodesOfAll_append]
    exact (nodesOfAll_graphs_sublist becomes).append (graphs_sublist fun s => (claimed s).brought)
  have fromAdded : ∀ h ∈ added.graphs, h.Grown old n₀ m₄ := fun h member => by
    obtain ⟨s, attached⟩ := mem_graphs.mp member
    exact (claimed s).grown h attached
  split
  · next noneAdded =>
    have none : added.graphs = [] := by
      rw [Redirects.graphs, List.isEmpty_iff.mp noneAdded]
      rfl
    rw [none] at parts
    exact .pure ⟨grown, (distinct_singleton.mpr grown.isTree).of_sublist parts⟩
  have whole : ∀ h ∈ node :: added.graphs, h.Whole := fun h member => by
    rcases List.mem_cons.mp member with rfl | isAdded
    · exact grown.whole
    · exact (fromAdded h isAdded).whole
  refine .bind (yields_checkDistinct whole) fun _ m₅ _ ⟨same, distinct⟩ => ?_
  subst same
  refine .bind (yields_ofItems_append node.redirects added m₅) fun r m₆ le₆ merged => ?_
  refine .bind .freshNumber fun k m₇ _ ⟨isNumber, isNext⟩ => ?_
  subst isNumber isNext
  obtain ⟨g', inside, redirected, known, isNew, nodes, nodes'⟩ :=
    (grown.known node (self_mem_nodes node)).withRedirects k r
  rw [redirected]
  have free : ∀ s, (added.get s).isSome → node.redirects.get s = none := fun s isSome => by
    have free := (claimed s).free isSome
    rw [boundary_eq, Option.or_eq_none_iff] at free
    exact free.1
  have perm : (inside ++ nodesOfRedirects r).Perm
      (inside ++ nodesOfRedirects node.redirects ++ nodesOfAll added.graphs) := by
    rw [List.append_assoc, ← nodesOfRedirects_eq]
    exact (nodesOfRedirects_perm merged free).append_left inside
  have all : nodesOfAll (node :: added.graphs) =
      node :: (inside ++ nodesOfRedirects node.redirects ++ nodesOfAll added.graphs) := by
    rw [nodesOfAll, nodes, List.cons_append]
  refine .pure ⟨grown_node older nodes' known isNew (Nat.le_trans from₀ (Nat.le_trans le₄' le₆)) ?_
    fun a below => ?_, distinct.of_sublist parts⟩
  · rw [Distinct, all, List.map_cons, List.nodup_cons] at distinct
    exact (perm.map number).nodup_iff.mpr distinct.2
  · have member : a ∈ nodesOfAll (node :: added.graphs) := by
      rw [all]
      exact List.mem_cons_of_mem _ (perm.mem_iff.mp below)
    obtain ⟨h, isPart, inPart⟩ := mem_nodesOfAll.mp member
    refine ⟨h, ?_, inPart⟩
    rcases List.mem_cons.mp isPart with rfl | isAdded
    · exact grown.mono le₆
    · exact (fromAdded h isAdded).mono le₆

end Redirect

/-! ## Pipelines -/

section Ends

variable {stages : List Item} {values : RedirectValues} {P : Item → Prop} {n : Nat}

/-- What is given to a pipeline is given again, in other places. -/
private structure Regiven (P : Item → Prop) (stages : List Item) (values : RedirectValues)
    (given : List Item × RedirectValues) : Prop where
  isStage : ∀ i ∈ given.1, P i
  isValue : ∀ s, P (given.2.get s)
  fromStages : given.1.flatMap Item.graphs = stages.flatMap Item.graphs
  fromValues : given.2.items.flatMap Item.graphs = values.items.flatMap Item.graphs

private theorem graphs_of_pathLike {i : Item} (isPath : i.it.isPathLike = true) : i.graphs = [] := by
  obtain ⟨label, value⟩ := i
  cases value <;> first | rfl | cases isPath

private theorem graphs_of_none {i : Item} (absent : i.it = .none) : i.graphs = [] := by
  rw [Item.graphs, absent]
  rfl

variable (isStage : ∀ i ∈ stages, P i) (isValue : ∀ s, P (values.get s))
include isStage isValue

private theorem yields_takeInput : (liftM (takeInput stages values) : Building (List Item × RedirectValues)).Yields n
    fun given n' => n' = n ∧ Regiven P stages values given := by
  unfold takeInput
  split
  case h_2 => exact .lift_ok rfl ⟨rfl, isStage, isValue, rfl, rfl⟩
  case h_1 first second rest =>
  split
  · next isPath =>
    split
    · next absent =>
      refine .lift_ok rfl ⟨rfl, fun i member => isStage i (List.mem_cons_of_mem _ member), fun s => ?_, ?_, ?_⟩
      · cases s with
        | stdin => exact isStage first List.mem_cons_self
        | stdout => exact isValue .stdout
        | stderr => exact isValue .stderr
      · rw [List.flatMap_cons, List.flatMap_cons (x := first), graphs_of_pathLike isPath, List.nil_append,
          List.flatMap_cons]
      · have same : values.stdin.graphs = first.graphs := by
          rw [graphs_of_none absent, graphs_of_pathLike isPath]
        simp [RedirectValues.items, Stream.all, RedirectValues.get, same]
    · exact .lift_error rfl fun m => ⟨_, rfl⟩
  · exact .lift_ok rfl ⟨rfl, isStage, isValue, rfl, rfl⟩

private theorem yields_takeOutput :
    (liftM (takeOutput stages values) : Building (List Item × RedirectValues)).Yields n
      fun given n' => n' = n ∧ Regiven P stages values given := by
  unfold takeOutput
  split
  case h_2 => exact .lift_ok rfl ⟨rfl, isStage, isValue, rfl, rfl⟩
  case h_1 last second rest reversed =>
  have all : stages = (second :: rest).reverse ++ [last] := by
    rw [← List.reverse_cons, ← reversed, List.reverse_reverse]
  split
  · next isPath =>
    split
    · next absent =>
      refine .lift_ok rfl ⟨rfl, fun i member => isStage i (all ▸ List.mem_append_left _ member), fun s => ?_, ?_, ?_⟩
      · cases s with
        | stdin => exact isValue .stdin
        | stdout => exact isStage last (all ▸ List.mem_append_right _ (List.mem_singleton_self _))
        | stderr => exact isValue .stderr
      · rw [all, List.flatMap_append, List.flatMap_singleton, graphs_of_pathLike isPath, List.append_nil]
      · have same : values.stdout.graphs = last.graphs := by
          rw [graphs_of_none absent, graphs_of_pathLike isPath]
        simp [RedirectValues.items, Stream.all, RedirectValues.get, same]
    · exact .lift_error rfl fun m => ⟨_, rfl⟩
  · exact .lift_ok rfl ⟨rfl, isStage, isValue, rfl, rfl⟩

end Ends

section Pipeline

variable {old : List Graph} {n₀ n : Nat}

private theorem brings_toItem {g : Graph} (grown : g.Grown old n₀ n) : g.toItem.BringsGrown old n₀ n := by
  intro h isGraph
  have isItem := toItem_of_known (grown.known g (self_mem_nodes g))
  rw [Item.graphs, isGraph] at isItem
  cases isItem
  exact grown

variable (older : ∀ a ∈ old, a.number < n₀)
include older

theorem yields_chain (from₀ : n₀ ≤ n) {first : Graph} (grown : first.Grown old n₀ n) {stages : List Item}
    (fromStages : ∀ stage ∈ stages, stage.BringsGrown old n₀ n) :
    (chain first stages).Yields n fun g n' => g.Grown old n₀ n' ∧
      (first.nodes ++ nodesOfAll (stages.flatMap Item.graphs)).Sublist g.nodes := by
  induction stages generalizing first n with
  | nil =>
    exact .pure ⟨grown, by simp [nodesOfAll]⟩
  | cons stage rest ih =>
    have isItem := toItem_of_known (grown.known first (self_mem_nodes first))
    refine (yields_pipeInto older from₀ (brings_toItem grown) (fromStages stage List.mem_cons_self)).bind
      fun joined m le made => ?_
    obtain ⟨joinedGrown, sublist⟩ := made
    have later := ih (Nat.le_trans from₀ le) joinedGrown fun other member =>
      (fromStages other (List.mem_cons_of_mem _ member)).mono le
    refine later.mono fun g n' _ whole => ⟨whole.1, ?_⟩
    rw [nodesOfAll_append, isItem, nodesOfAll_singleton] at sublist
    rw [List.flatMap_cons, nodesOfAll_append, ← List.append_assoc]
    exact (sublist.append_right _).trans whole.2

theorem yields_pipeline (from₀ : n₀ ≤ n) {stages : List Item} {values : RedirectValues}
    (fromStages : ∀ stage ∈ stages, stage.BringsGrown old n₀ n)
    (fromValues : ∀ s, (values.get s).BringsGrown old n₀ n) (append : Bool) :
    (pipeline stages values append).Yields n fun g n' => g.Grown old n₀ n' ∧
      Distinct (stages.flatMap Item.graphs ++ values.items.flatMap Item.graphs) := by
  unfold pipeline
  refine .check (e := .noStages) (fun m => ⟨_, rfl⟩) fun _ => ?_
  refine (yields_takeInput fromStages fromValues).bind fun ⟨stages₁, values₁⟩ m₁ _ ⟨same₁, first⟩ => ?_
  subst same₁
  refine (yields_takeOutput first.isStage first.isValue).bind fun ⟨stages₂, values₂⟩ m₂ _ ⟨same₂, second⟩ => ?_
  subst same₂
  have stages : stages₂.flatMap Item.graphs = stages.flatMap Item.graphs :=
    second.fromStages.trans first.fromStages
  have values : values₂.items.flatMap Item.graphs = values.items.flatMap Item.graphs :=
    second.fromValues.trans first.fromValues
  rw [← stages, ← values]
  cases stages₂ with
  | nil => exact .throw fun m => ⟨_, rfl⟩
  | cons start rest =>
    refine (yields_ofItem older from₀ (second.isStage start List.mem_cons_self)).bind
      fun g m₃ le₃ ⟨grown, becomes⟩ => ?_
    have from₃ := Nat.le_trans from₀ le₃
    refine (yields_chain older from₃ grown fun stage member =>
      (second.isStage stage (List.mem_cons_of_mem _ member)).mono le₃).bind fun joined m₄ le₄ ⟨isGrown, sublist⟩ => ?_
    refine (yields_redirect older (Nat.le_trans from₃ le₄) (brings_toItem isGrown)
      (fun s => (second.isValue s).mono (Nat.le_trans le₃ le₄)) append).mono fun g' n' _ ⟨grown', distinct⟩ => ?_
    refine ⟨grown', distinct.of_sublist ?_⟩
    rw [toItem_of_known (isGrown.known joined (self_mem_nodes joined)), nodesOfAll_append, nodesOfAll_append,
      nodesOfAll_singleton, List.flatMap_cons, nodesOfAll_append]
    exact (((nodesOfAll_graphs_sublist becomes).append_right _).trans sublist).append_right _

end Pipeline

end Graph

end Pipework
