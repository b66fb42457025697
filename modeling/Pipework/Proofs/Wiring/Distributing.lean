import Pipework.Proofs.Graph.Chaining
import Pipework.Proofs.Wiring.Pushing

/-!
# Redirects of a pipeline, and of its ends

The input and the output of a pipeline may be redirected as a whole, or stdin of its first stage and stdout of its last
one before they are joined (`Graph.joinInside`). Both are accepted exactly if the two targets can be used and the two
ends are free (`Graph.settles_outside`, `Graph.settles_inside`). What is built inside gains each redirect at one place.
-/

namespace Pipework

namespace Graph

/-- Redirect stdin of the first stage and stdout of the last one. A single stage gets both. -/
def redirectEnds (x y : Item) (append : Bool) : List Item → Building (List Item)
  | [] => return []
  | [only] => do return [(← redirect only { stdin := x, stdout := y } append).toItem]
  | first :: second :: rest => do
    let head ← redirect first { stdin := x } append
    let tail ← redirect ((second :: rest).getLast (List.cons_ne_nil second rest)) { stdout := y } append
    return head.toItem :: ((second :: rest).dropLast ++ [tail.toItem])

/-- Join stages, with the redirects on those at the ends. -/
def joinInside (x y : Item) (append : Bool) (stages : List Item) : Building Graph := do
  pipeline (← redirectEnds x y append stages) {} append

theorem redirectEnds_concat (x y : Item) (append : Bool) (first : Item) (mid : List Item) (last : Item) :
    redirectEnds x y append (first :: (mid ++ [last])) = (do
      let head ← redirect first { stdin := x } append
      let tail ← redirect last { stdout := y } append
      return head.toItem :: (mid ++ [tail.toItem])) := by
  cases mid with
  | nil => rfl
  | cons j rest =>
    rw [List.cons_append, redirectEnds]
    simp only [← List.cons_append, List.getLast_concat, List.dropLast_concat]

/-! ## Stages -/

section Stages

variable {stages : List Item} {values : RedirectValues} {append : Bool} {n m : Nat} {i : Item} {g : Graph}

/-- What becomes a graph is no path. -/
theorem Becomes.isPathLike (becomes : Becomes i n g m) : i.it.isPathLike = false := by
  cases becomes with
  | part isPart =>
    obtain ⟨label, value⟩ := i
    cases value <;> cases isPart
    rfl
  | leaf isCommand => rw [isCommand]; rfl

theorem Chained.isPathLike {made : Graph} (chained : Chained g n stages made m) :
    ∀ i ∈ stages, i.it.isPathLike = false := by
  induction chained with
  | done => exact nofun
  | pipe becomes output input later ih =>
    intro j member
    rcases List.mem_cons.mp member with rfl | member
    · exact becomes.isPathLike
    · exact ih j member

/-- A chain has the input of its first stage. -/
theorem Chained.boundary_stdin {made : Graph} (chained : Chained g n stages made m) :
    made.boundary .stdin = g.boundary .stdin := by
  induction chained with
  | done => rfl
  | pipe becomes output input later ih => exact ih

/-- Stages of which none is a path are joined, and then the whole is redirected. -/
theorem pipeline_eq (noPaths : ∀ i ∈ stages, i.it.isPathLike = false) (values : RedirectValues) (append : Bool) :
    pipeline stages values append = (do redirect (← joinAll stages).toItem values append) := by
  cases stages with
  | nil => rfl
  | cons first rest =>
    have input : takeInput (first :: rest) values = .ok (first :: rest, values) := by
      cases rest with
      | nil => rfl
      | cons second rest => rw [takeInput, noPaths first List.mem_cons_self]; rfl
    have output : takeOutput (first :: rest) values = .ok (first :: rest, values) := by
      unfold takeOutput
      split
      · next last second before reversed =>
        rw [noPaths last (List.mem_reverse.mp (reversed ▸ List.mem_cons_self))]
        rfl
      · rfl
    have step {α β : Type} (a : α) (f : α → Building β) :
        (liftM (Except.ok a : Except BuildError α) : Building α) >>= f = f a := rfl
    rw [pipeline, if_neg (by simp), input, step, joinAll, bind_assoc]
    dsimp only
    rw [output, step]

/-- Without redirects a graph stays as it is. -/
theorem run_redirect_nothing (becomes : Becomes i n g m) : (redirect i {} append).run n = .ok (g, m) := by
  rw [redirect, Building.run_bind becomes.ran]
  rfl

end Stages

/-- What comes of a first stage, some in the middle and a last one, when they are joined from a number on. -/
structure Staged (first : Item) (mid : List Item) (last : Item) (n m j k : Nat) (head left tail : Graph) : Prop where
  begins : Becomes first n head m
  chained : Chained head m mid left j
  ends : Becomes last j tail k
  output : left.boundary .stdout = none
  input : tail.boundary .stdin = none
  distinct : Distinct [.pipe k left tail {}]

section Staged

variable {first last : Item} {mid : List Item} {n m j k : Nat} {head left tail whole : Graph}
variable (older : ∀ i ∈ first :: (mid ++ [last]), i.IsOlder n)
include older

theorem staged_of_run {n' : Nat} (ran : (joinAll (first :: (mid ++ [last]))).run n = .ok (whole, n')) :
    ∃ m j k head left tail, Staged first mid last n m j k head left tail ∧ whole = .pipe k left tail {} ∧
      n' = k + 1 := by
  obtain ⟨head, m, ranFirst, ranChain⟩ := Building.bind_ok ran
  obtain ⟨-, begins⟩ := (yields_becomes first n).ok ranFirst
  have olderFirst := older first List.mem_cons_self
  have wholeHead := begins.whole olderFirst
  obtain ⟨chained, distinct⟩ := chained_of_run (isOlder_toItem wholeHead (begins.older olderFirst))
    (wholeHead head (self_mem_nodes head)) (fun i member => (older i (List.mem_cons_of_mem _ member)).mono begins.later)
    ranChain
  obtain ⟨left, j, tail, k, before, ends, output, input, rfl, rfl⟩ := chained.split_last
  exact ⟨m, j, k, head, left, tail, ⟨begins, before, ends, output, input, distinct (.inl (by simp))⟩, rfl, rfl⟩

namespace Staged

variable (staged : Staged first mid last n m j k head left tail)
include staged

omit older in
/-- The stages are joined again in the same way. -/
theorem chained_whole : Chained head m (mid ++ [last]) (.pipe k left tail {}) (k + 1) :=
  staged.chained.snoc staged.ends staged.output staged.input

theorem ran : (joinAll (first :: (mid ++ [last]))).run n = .ok (.pipe k left tail {}, k + 1) ∧
    (Graph.pipe k left tail {}).Whole ∧ ∀ a ∈ (Graph.pipe k left tail {}).nodes, a.number < k + 1 := by
  have olderFirst := older first List.mem_cons_self
  have wholeHead := staged.begins.whole olderFirst
  obtain ⟨ran, isWhole, numbers⟩ := staged.chained_whole.ran (isOlder_toItem wholeHead (staged.begins.older olderFirst))
    (wholeHead head (self_mem_nodes head))
    (fun i member => (older i (List.mem_cons_of_mem _ member)).mono staged.begins.later) staged.distinct
  refine ⟨?_, isWhole, numbers⟩
  rw [joinAll, Building.run_bind staged.begins.ran]
  exact ran

omit older in
theorem isPathLike : ∀ i ∈ first :: (mid ++ [last]), i.it.isPathLike = false := by
  intro i member
  rcases List.mem_cons.mp member with rfl | member
  · exact staged.begins.isPathLike
  · exact staged.chained_whole.isPathLike i member

omit older in
/-- No node stands twice in the stages at the ends. -/
theorem isTree : head.IsTree ∧ tail.IsTree := by
  have nodes : nodesOfAll [.pipe k left tail {}] = .pipe k left tail {} :: (left.nodes ++ tail.nodes) := by
    simp [nodesOfAll, Graph.nodes, nodesOfRedirects, nodesOfTarget?]
  refine ⟨distinct_singleton.mp (staged.distinct.of_sublist ?_), distinct_singleton.mp (staged.distinct.of_sublist ?_)⟩ <;>
    rw [nodes, nodesOfAll_singleton]
  · exact ((staged.chained.sublist).trans (List.sublist_append_left _ _)).cons _
  · exact (List.sublist_append_right _ _).cons _

end Staged

variable {x y : Item}

variable (staged : Staged first mid last n m j k head left tail)
include staged

/-! ## Inside -/

omit older staged in
/-- Graphs below what an item becomes stand below the item. -/
private theorem branches_sublist {i : Item} {g : Graph} (becomes : Becomes i n g m) :
    (nodesOfAll g.branches).Sublist (nodesOfAll i.part?.toList) := by
  cases becomes with
  | part isPart =>
    rw [isPart, Option.toList_some, nodesOfAll_singleton, nodes_eq]
    exact List.sublist_cons_self _ _
  | leaf isCommand => exact List.nil_sublist _

/-- The stages are older than what is made of them. -/
private theorem Staged.older_stages : ∀ a ∈ nodesOfAll (head :: partsOf (mid ++ [last])), a.number < m := by
  intro a member
  rw [nodesOfAll, List.mem_append] at member
  rcases member with inHead | inRest
  · exact staged.begins.older (older first List.mem_cons_self) a inHead
  · obtain ⟨g, isPart, inPart⟩ := mem_nodesOfAll.mp inRest
    obtain ⟨i, isItem, ofItem⟩ := List.mem_flatMap.mp isPart
    exact Nat.lt_of_lt_of_le ((older i (List.mem_cons_of_mem _ isItem) g (Option.mem_toList.mp ofItem)).2 a inPart)
      staged.begins.later

section Inside

variable {head' tail₁ tail' : Graph} {X Y : Labelled Target} {n₁ n₂ n₃ : Nat}
variable (atHead : head.Redirected m n₁ (some X) none head') (becomes : Becomes last n₁ tail₁ n₂)
variable (atTail : tail₁.Redirected n₂ n₃ none (some Y) tail') (plain : X.it.graph? = none ∧ Y.it.graph? = none)
include atHead becomes atTail plain

/-- What is made of the stages when those at the ends have been redirected first. -/
private theorem distinct_inside {made : Graph} {n₄ : Nat}
    (chained : Chained head' n₃ (mid ++ [tail'.toItem]) made n₄) : Distinct [made] := by
  have isTail : tail'.toItem.part? = some tail' := part?_toItem atTail.known.isNode
  have head_draws : Draws m n₁ head.branches [head'] := atHead.draws (attached?_eq_none plain.1 rfl)
  have tail_draws : Draws n₁ n₃ tail₁.branches [tail'] :=
    ((Draws.refl n₁ _).mono becomes.later).trans (atTail.draws (attached?_eq_none rfl plain.2))
  have all : Draws m n₄ (head.branches ++ partsOf mid ++ tail₁.branches) [made] := by
    refine (((head_draws.append (.refl n₁ (partsOf mid))).append tail_draws).trans ?_)
    have items : head' :: partsOf (mid ++ [tail'.toItem]) = [head'] ++ partsOf mid ++ [tail'] := by
      simp [partsOf, isTail]
    exact items ▸ chained.draws
  have below : (nodesOfAll (head.branches ++ partsOf mid ++ tail₁.branches)).Sublist
      (nodesOfAll (head :: partsOf (mid ++ [last]))) := by
    have parts : partsOf (mid ++ [last]) = partsOf mid ++ last.part?.toList := by simp [partsOf]
    rw [parts, nodesOfAll_append, nodesOfAll_append, nodesOfAll, nodesOfAll_append, ← List.append_assoc]
    refine ((List.Sublist.append ?_ (.refl _)).append (branches_sublist becomes))
    rw [head.nodes_eq]
    exact List.sublist_cons_self _ _
  have older := staged.older_stages older
  exact (all.distinct fun a member => older a (below.subset member)).mpr
    (((staged.chained_whole.draws.distinct older).mp staged.distinct).of_sublist below)

/-- The first stage gains the redirect of stdin, and so does what is joined up to the last one. -/
private theorem run_inside (append : Bool) : ∃ left' k', n₃ ≤ k' + 1 ∧
    (pipeline (head'.toItem :: (mid ++ [tail'.toItem])) {} append).run n₃ = .ok (.pipe k' left' tail' {}, k' + 1) ∧
    (Graph.pipe k' left' tail' {}).Whole ∧ ∃ place, Gains place .stdin X.it left left' := by
  obtain ⟨left', k', chained, free, place, gains'⟩ := staged.chained.again
    (R := fun g h => h.boundary .stdout = g.boundary .stdout ∧ ∃ place, Gains place .stdin X.it g h)
    (fun _ _ both => both.1) (fun g g' h h' k k' both alike => ⟨congrFun alike.boundary.symm .stdout, by
      obtain ⟨-, place, gains⟩ := both
      exact ⟨place ++ [.left], gains.pipe alike k k'⟩⟩) ⟨atHead.boundary .stdout, [], atHead.gains_stdin plain.1⟩ n₃
  have isHead : head'.toItem.part? = some head' := part?_toItem atHead.known.isNode
  have isTail : tail'.toItem.part? = some tail' := part?_toItem atTail.known.isNode
  have input : tail'.boundary .stdin = none :=
    (atTail.boundary .stdin).trans ((congrFun (staged.ends.alike becomes).1.boundary.symm .stdin).trans staged.input)
  have whole := chained.snoc (.part isTail) (free.trans staged.output) input
  have olderFirst := older first List.mem_cons_self
  have olderLast := (older last (by simp)).mono (Nat.le_trans staged.begins.later (Nat.le_of_lt atHead.later))
  have behind : n₁ ≤ n₃ := Nat.le_trans becomes.later (Nat.le_of_lt atTail.later)
  have olderHead := (atHead.isOlder (attached?_eq_none plain.1 rfl) (staged.begins.whole olderFirst)
    (staged.begins.older olderFirst)).mono behind
  obtain ⟨ran, isWhole, -⟩ := whole.ran olderHead atHead.known.isNode (fun i member => by
    rcases List.mem_append.mp member with inMid | isLast
    · exact (older i (by simp [inMid])).mono
        (Nat.le_trans staged.begins.later (Nat.le_trans (Nat.le_of_lt atHead.later) behind))
    · rw [List.mem_singleton.mp isLast]
      exact atTail.isOlder (attached?_eq_none rfl plain.2) (becomes.whole olderLast) (becomes.older olderLast))
    (distinct_inside older staged atHead becomes atTail plain whole)
  refine ⟨left', k', whole.later, ?_, isWhole, place, gains'⟩
  have noPaths : ∀ i ∈ head'.toItem :: (mid ++ [tail'.toItem]), i.it.isPathLike = false := by
    intro i member
    rcases List.mem_cons.mp member with rfl | member
    · exact (Becomes.part isHead : Becomes _ 0 _ _).isPathLike
    · exact whole.isPathLike i member
  have joined : (joinAll (head'.toItem :: (mid ++ [tail'.toItem]))).run n₃ = .ok (.pipe k' left' tail' {}, k' + 1) := by
    rw [joinAll, Building.run_bind (Becomes.part isHead).ran]
    exact ran
  rw [pipeline_eq noPaths, Building.run_bind joined]
  exact run_redirect_nothing (.part rfl)

end Inside

variable (plain : x.IsPlain ∧ y.IsPlain)
include plain

/-! ## Outside -/

/-- Redirects of the whole are accepted exactly if both can be used and the ends are free. -/
theorem settles_outside (append : Bool) : (pipeline (first :: (mid ++ [last])) { stdin := x, stdout := y } append).Settles n
    (head.Accepts x .stdin append ∧ tail.Accepts y .stdout append) fun l n' =>
      ∃ X Y, x.Gives .stdin append (some X) ∧ y.Gives .stdout append (some Y) ∧
        (Graph.pipe k left tail {}).Redirected (k + 1) n' (some X) (some Y) l ∧ l.Whole := by
  obtain ⟨ran, isWhole, numbers⟩ := staged.ran older
  have joined : (joinAll (first :: (mid ++ [last]))).Settles n True fun g n' => g = .pipe k left tail {} ∧ n' = k + 1 := by
    rw [Building.Settles, ran]
    exact ⟨Nat.le_trans staged.begins.later staged.chained_whole.later, trivial, rfl, rfl⟩
  rw [pipeline_eq staged.isPathLike]
  refine joined.bind_of_true ?_
  rintro _ _ - ⟨rfl, rfl⟩
  refine (settles_redirect (.part rfl) isWhole trivial (.inr plain.1) (.inr plain.2) rfl
    (.inl plain.1.ne_none)).mono ?_ ?_
  · have input : (Graph.pipe k left tail {}).boundary .stdin = head.boundary .stdin := staged.chained.boundary_stdin
    exact ⟨fun all => ⟨(Accepts.congr input).mp all.1, all.2.1⟩,
      fun both => ⟨(Accepts.congr input).mpr both.1, both.2, distinct_singleton.mp staged.distinct⟩⟩
  · rintro l n' - - ⟨stdin, stdout, fromInput, fromOutput, redirected⟩
    obtain ⟨X, rfl⟩ := fromInput.given plain.1
    obtain ⟨Y, rfl⟩ := fromOutput.given plain.2
    have noGraph : ∀ s, Redirects.attached? { stdin := some X, stdout := some Y } s = none :=
      attached?_eq_none fromInput.1 fromOutput.1
    exact ⟨X, Y, fromInput, fromOutput, redirected,
      (redirected.isOlder noGraph isWhole numbers _ (part?_toItem redirected.known.isNode)).1⟩

/-- What is built with redirects of the stages at the ends: each of the two ends gains one of them, where the last
stage passes the output on to no graph. -/
structure Inside (left tail : Graph) (X Y : Labelled Target) (r : Graph) : Prop where
  made : ∃ k' left' tail', r = .pipe k' left' tail' {} ∧ (∃ place, Gains place .stdin X.it left left') ∧
    (tail.redirects.attached? .stderr = none → Gains [] .stdout Y.it tail tail')

/-- Redirects of the stages at the ends are accepted in the same cases. -/
theorem settles_inside (known : head.IsKnown ∧ tail.IsKnown) (append : Bool) :
    (joinInside x y append (first :: (mid ++ [last]))).Settles n
    (head.Accepts x .stdin append ∧ tail.Accepts y .stdout append) fun r _ =>
      ∃ X Y, x.Gives .stdin append (some X) ∧ y.Gives .stdout append (some Y) ∧ Inside left tail X Y r ∧ r.Whole := by
  have olderFirst := older first List.mem_cons_self
  rw [joinInside, redirectEnds_concat, bind_assoc]
  refine (settles_redirect staged.begins (staged.begins.whole olderFirst) known.1 (.inr plain.1) (.inl rfl) rfl
    (.inl plain.1.ne_none)).bind_iff
    ⟨fun both => ⟨both.1.1, both.2⟩, fun both => ⟨⟨both.1, .inl rfl, staged.isTree.1⟩, both.2⟩⟩ ?_
  rintro head' n₁ later - ⟨stdin, stdout, fromInput, absent, atHead⟩
  obtain rfl := absent.absent rfl
  obtain ⟨X, rfl⟩ := fromInput.given plain.1
  obtain ⟨tail₁, n₂, becomes⟩ := staged.ends.again n₁
  have alike := (staged.ends.alike becomes).1
  have tail_known : tail₁.IsKnown ∧ tail₁.IsTree := by
    have isTree := staged.isTree.2
    cases alike with
    | refl => exact ⟨known.2, isTree⟩
    | leaf n n' command => exact ⟨trivial, by simp [IsTree, nodes, nodesOfRedirects, nodesOfTarget?]⟩
  have olderLast := (older last (by simp)).mono later
  rw [bind_assoc]
  refine (settles_redirect becomes (becomes.whole olderLast) tail_known.1 (.inl rfl) (.inr plain.2) rfl
    (.inr plain.2.ne_none)).bind_iff ((and_iff_left trivial).trans
      ⟨fun all => (Accepts.congr (congrFun alike.boundary .stdout)).mpr all.2.1,
        fun accepts => ⟨.inl rfl, (Accepts.congr (congrFun alike.boundary .stdout)).mp accepts, tail_known.2⟩⟩) ?_
  rintro tail' n₃ - - ⟨stdin, stdout, absent, fromOutput, atTail⟩
  obtain rfl := absent.absent rfl
  obtain ⟨Y, rfl⟩ := fromOutput.given plain.2
  have noGraph : X.it.graph? = none ∧ Y.it.graph? = none := ⟨fromInput.1, fromOutput.1⟩
  obtain ⟨left', k', behind, ran, isWhole, gains⟩ := run_inside older staged atHead becomes atTail noGraph append
  rw [pure_bind, Building.Settles, ran]
  refine ⟨behind, trivial, X, Y, fromInput, fromOutput, ⟨k', left', tail', rfl, gains, fun noErrors => ?_⟩, isWhole⟩
  have own : tail₁.redirects = tail.redirects := by cases alike <;> rfl
  exact .of_alike alike (atTail.gains_stdout noGraph.2 (own ▸ noErrors)
    ((congrFun alike.boundary.symm .stdin).trans staged.input))

end Staged

/-! ## Both -/

/-- Of several stages the last one does not itself pass its errors on to a graph. -/
def KeepsErrors (stages : List Item) : Prop :=
  ∀ first mid last g, stages = first :: (mid ++ [last]) → last.part? = some g → g.redirects.attached? .stderr = none

/-- The stages at the ends have nodes of known kinds. -/
def KnowsEnds (stages : List Item) : Prop :=
  ∀ i g, stages.head? = some i ∨ stages.getLast? = some i → i.part? = some g → g.IsKnown

/-- A graph that is joined, and the same with redirects of stdin and stdout, outside and inside. -/
structure Distributed (stages : List Item) (chain l r : Graph) (X Y : Target) : Prop where
  whole : l.Whole ∧ r.Whole
  /-- What the two redirects make is made once, before all that is made without them. -/
  makings : Chore.makings (l.chores []) = (X.making? [] .stdin).toList ++
    ((Y.making? [] .stdout).toList ++ Chore.makings (chain.chores []))
  /-- The chores are the same in another order. -/
  rearranged : KeepsErrors stages → ∃ φ, l.Rearranged φ r
  /-- What can be done inside can be done outside, and what can be done outside can be done inside, if nothing reads
  what stdout is redirected to. -/
  doable : KeepsErrors stages → ∀ w, (Chore.AllDoable w [] (r.chores []) → Chore.AllDoable w [] (l.chores [])) ∧
    (l.ReadsNoOutput w → Chore.AllDoable w [] (l.chores []) → Chore.AllDoable w [] (r.chores []))

section Single

variable {x y : Item} {n m : Nat} {only : Item} {node : Graph}
variable (older : only.IsOlder n) (begins : Becomes only n node m) (known : node.IsKnown) (plain : x.IsPlain ∧ y.IsPlain)
include older begins known plain

/-- A single stage is redirected as a whole. -/
theorem settles_single (append : Bool) : (pipeline [only] { stdin := x, stdout := y } append).Settles n
    (node.Accepts x .stdin append ∧ node.Accepts y .stdout append ∧ node.IsTree) fun l n' =>
      ∃ X Y, x.Gives .stdin append (some X) ∧ y.Gives .stdout append (some Y) ∧
        node.Redirected m n' (some X) (some Y) l ∧ l.Whole := by
  have isWhole := begins.whole older
  have isNode : node.toItem.part? = some node := part?_toItem known.isNode
  have joined : (joinAll [only]).Settles n True fun g n' => g = node ∧ n' = m := by
    rw [Building.Settles, joinAll, Building.run_bind begins.ran]
    exact ⟨begins.later, trivial, rfl, rfl⟩
  rw [pipeline_eq (by simpa using begins.isPathLike)]
  refine joined.bind_of_true ?_
  rintro _ _ - ⟨rfl, rfl⟩
  refine (settles_redirect (.part isNode) isWhole known (.inr plain.1) (.inr plain.2) rfl
    (.inl plain.1.ne_none)).mono .rfl ?_
  rintro l n' - - ⟨stdin, stdout, fromInput, fromOutput, redirected⟩
  obtain ⟨X, rfl⟩ := fromInput.given plain.1
  obtain ⟨Y, rfl⟩ := fromOutput.given plain.2
  have noGraph : ∀ s, Redirects.attached? { stdin := some X, stdout := some Y } s = none :=
    attached?_eq_none fromInput.1 fromOutput.1
  exact ⟨X, Y, fromInput, fromOutput, redirected,
    (redirected.isOlder noGraph isWhole (begins.older older) _ (part?_toItem redirected.known.isNode)).1⟩

/-- A single stage is redirected in the same way inside. -/
theorem run_single (append : Bool) : (joinInside x y append [only]).run n =
    (pipeline [only] { stdin := x, stdout := y } append).run n := by
  have isNode : node.toItem.part? = some node := part?_toItem known.isNode
  have settles := settles_single older begins known plain append
  have outside : (pipeline [only] { stdin := x, stdout := y } append).run n =
      (redirect only { stdin := x, stdout := y } append).run n := by
    rw [pipeline_eq (by simpa using begins.isPathLike), joinAll, bind_assoc, Building.run_bind begins.ran]
    change (redirect node.toItem _ append).run m = _
    rw [redirect, redirect, Building.run_bind begins.ran, Building.run_bind (Becomes.part isNode).ran]
  rw [joinInside, redirectEnds, bind_assoc, StateT.run_bind, outside]
  cases ran : (redirect only { stdin := x, stdout := y } append).run n with
  | error e => rfl
  | ok done =>
    obtain ⟨l, n'⟩ := done
    obtain ⟨-, X, Y, -, -, redirected, -⟩ := settles.ok (outside.trans ran)
    have isPart : l.toItem.part? = some l := part?_toItem redirected.known.isNode
    have becomes : Becomes l.toItem n' l n' := .part isPart
    change (pipeline [l.toItem] {} append).run n' = _
    rw [pipeline_eq (by simpa using becomes.isPathLike), joinAll, bind_assoc, Building.run_bind becomes.ran]
    exact run_redirect_nothing (.part isPart)

end Single

/-- What an item is taken for does not depend on what was built before. -/
private theorem bare_of_gives {i : Item} {s : Stream} {append : Bool} {X X' : Labelled Target}
    (gives : i.Gives s append (some X)) (gives' : i.Gives s append (some X')) : X'.it.bare = X.it.bare :=
  gives'.2.unique gives.2

private theorem making?_toList_bare (t : Target) (s : Stream) :
    (t.bare.making? [] s).toList = (t.making? [] s).toList := by rw [t.making?_bare]

/-- What is redirected inside does what is redirected outside, at other places. -/
theorem Inside.pushed {k n n' : Nat} {left tail l r : Graph} {X Y X' Y' : Labelled Target}
    (inside : Inside left tail X' Y' r) (outside : (Graph.pipe k left tail {}).Redirected n n' (some X) (some Y) l)
    (same : X'.it.bare = X.it.bare ∧ Y'.it.bare = Y.it.bare) (plain : X.it.graph? = none ∧ Y.it.graph? = none)
    (noErrors : tail.redirects.attached? .stderr = none) : ∃ input output, Pushed input output X.it Y.it l r := by
  obtain ⟨k₁, r₁, -, -, made, input, output, errors⟩ := outside.made
  cases made
  obtain ⟨k', left', tail', rfl, ⟨place, gains⟩, gains'⟩ := inside.made
  exact ⟨_, _, pushed_of_gains gains (gains' noErrors) same input output errors plain _ _⟩

section Both

variable {x y : Item} {append : Bool} {n m : Nat} {l r : Graph} {X Y X' Y' : Labelled Target}

/-- What becomes of a stage at an end has a known kind. -/
private theorem isKnown_of_becomes {i : Item} {g : Graph} (becomes : Becomes i n g m)
    (known : ∀ g, i.part? = some g → g.IsKnown) : g.IsKnown := by
  cases becomes with
  | part isPart => exact known g isPart
  | leaf isCommand => trivial

/-- A single stage is redirected as a whole in both cases. -/
private theorem distributed_single {only : Item} {node : Graph} (isWhole : l.Whole)
    (redirected : node.Redirected m n (some X) (some Y) l) (plain : X.it.graph? = none ∧ Y.it.graph? = none) :
    Distributed [only] node l l X.it.bare Y.it.bare := by
  refine ⟨⟨isWhole, isWhole⟩, ?_, fun _ => ⟨id, .same l⟩, fun _ w => ⟨id, fun _ => id⟩⟩
  rw [making?_toList_bare, making?_toList_bare]
  exact redirected.makings plain

/-- Of several stages two are redirected inside. -/
private theorem distributed_staged {first last : Item} {mid : List Item} {n₀ m₀ j k : Nat} {head left tail : Graph}
    (staged : Staged first mid last n₀ m₀ j k head left tail) (whole : l.Whole ∧ r.Whole)
    (redirected : (Graph.pipe k left tail {}).Redirected m n (some X) (some Y) l) (made : Inside left tail X' Y' r)
    (same : X'.it.bare = X.it.bare ∧ Y'.it.bare = Y.it.bare) (plain : X.it.graph? = none ∧ Y.it.graph? = none) :
    Distributed (first :: (mid ++ [last])) (.pipe k left tail {}) l r X.it.bare Y.it.bare := by
  have pushed (keeps : KeepsErrors (first :: (mid ++ [last]))) : ∃ input output, Pushed input output X.it Y.it l r := by
    refine made.pushed redirected same plain ?_
    cases staged.ends with
    | part isPart => exact keeps first mid last tail rfl isPart
    | leaf isCommand => rfl
  refine ⟨whole, ?_, fun keeps => ?_, fun keeps w => ?_⟩
  · rw [making?_toList_bare, making?_toList_bare]
    exact redirected.makings plain
  · obtain ⟨input, output, pushed⟩ := pushed keeps
    exact ⟨_, pushed.rearranged⟩
  · obtain ⟨input, output, pushed⟩ := pushed keeps
    exact pushed.allDoable

/-- **Redirects of the ends distribute over what is built.** -/
theorem distributed {stages : List Item} {n₀ : Nat} {joined : Graph} (older : ∀ i ∈ stages, i.IsOlder n)
    (known : KnowsEnds stages) (plain : x.IsPlain ∧ y.IsPlain) (ran : (joinAll stages).run n = .ok (joined, n₀)) :
    (∃ refusal refusal', (pipeline stages { stdin := x, stdout := y } append).run n = .error refusal ∧
      refusal.IsRefusal ∧ (joinInside x y append stages).run n = .error refusal' ∧ refusal'.IsRefusal) ∨
    ∃ l r m m' X Y, (pipeline stages { stdin := x, stdout := y } append).run n = .ok (l, m) ∧
      (joinInside x y append stages).run n = .ok (r, m') ∧ x.Means .stdin append X ∧ y.Means .stdout append Y ∧
      Distributed stages joined l r X Y := by
  cases stages with
  | nil => cases ran
  | cons first rest =>
    rcases List.eq_nil_or_concat rest with rfl | ⟨mid, last, rfl⟩
    · obtain ⟨node, m, begun, ranRest⟩ := Building.bind_ok ran
      cases ranRest
      obtain ⟨-, begins⟩ := (yields_becomes first n).ok begun
      have olderFirst := older first List.mem_cons_self
      have knownFirst := isKnown_of_becomes begins fun g isPart => known first g (.inl rfl) isPart
      have settles := settles_single olderFirst begins knownFirst plain append
      have same := run_single olderFirst begins knownFirst plain append
      cases outside : (pipeline [first] { stdin := x, stdout := y } append).run n with
      | error refusal =>
        have isRefusal := (settles.error outside).2
        exact .inl ⟨refusal, refusal, rfl, isRefusal, same.trans outside, isRefusal⟩
      | ok done =>
        obtain ⟨l, m⟩ := done
        obtain ⟨-, X, Y, fromInput, fromOutput, redirected, isWhole⟩ := settles.ok outside
        exact .inr ⟨l, l, m, m, _, _, rfl, same.trans outside, fromInput.2, fromOutput.2,
          distributed_single isWhole redirected ⟨fromInput.1, fromOutput.1⟩⟩
    · rw [List.concat_eq_append] at *
      obtain ⟨m, j, k, head, left, tail, staged, rfl, rfl⟩ := staged_of_run older ran
      have isLast : (first :: (mid ++ [last])).getLast? = some last := List.getLast?_concat (l := first :: mid)
      have knownEnds : head.IsKnown ∧ tail.IsKnown :=
        ⟨isKnown_of_becomes staged.begins fun g isPart => known first g (.inl rfl) isPart,
          isKnown_of_becomes staged.ends fun g isPart => known last g (.inr isLast) isPart⟩
      have settles := settles_outside older staged plain append
      have settles' := settles_inside older staged plain knownEnds append
      cases outside : (pipeline (first :: (mid ++ [last])) { stdin := x, stdout := y } append).run n with
      | error refusal =>
        obtain ⟨stuck, isRefusal⟩ := settles.error outside
        cases inside : (joinInside x y append (first :: (mid ++ [last]))).run n with
        | error refusal' => exact .inl ⟨refusal, refusal', rfl, isRefusal, rfl, (settles'.error inside).2⟩
        | ok done => exact absurd (settles'.ok inside).1 stuck
      | ok done =>
        obtain ⟨l, m₁⟩ := done
        obtain ⟨accepted, X, Y, fromInput, fromOutput, redirected, isWhole⟩ := settles.ok outside
        cases inside : (joinInside x y append (first :: (mid ++ [last]))).run n with
        | error refusal' => exact absurd accepted (settles'.error inside).1
        | ok done =>
          obtain ⟨r, m₂⟩ := done
          obtain ⟨-, X', Y', fromInput', fromOutput', made, isWhole'⟩ := settles'.ok inside
          exact .inr ⟨l, r, m₁, m₂, _, _, rfl, rfl, fromInput.2, fromOutput.2,
            distributed_staged staged ⟨isWhole, isWhole'⟩ redirected made
              ⟨bare_of_gives fromInput fromInput', bare_of_gives fromOutput fromOutput'⟩ ⟨fromInput.1, fromOutput.1⟩⟩

end Both

end Graph

end Pipework
