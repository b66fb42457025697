import Pipework.Proofs.Wiring.Distinct
import Pipework.Proofs.Wiring.Steps

/-!
# Walking is doing chores

The walk hands contexts down a graph; the chores look up what the nearest claims get. Where the
assignment fits the next descriptor, both are the same step: they do the same to the wiring and to
the system, and fail at the same point. So what the walk does can be proved along a list.
-/

namespace Pipework

namespace Chore

variable {α β : Type} (value : Claim → Descriptor)

/-- Doing a chore opens as many descriptors as what it makes. -/
theorem Effect.next {value : Claim → Descriptor} {c : Chore} {σ σ' : Wiring} {w w' : World}
    {events : List Event} (effect : Effect value σ w c (.ok ()) events σ' w') :
    w'.nextDescriptor = w.nextDescriptor + Making.sizes (makings [c]) := by
  have size : Making.sizes (makings [c]) = (c.making?.map Making.size).getD 0 := by
    cases made : c.making? <;> simp [makings, made, Making.sizes]
  have pipe : w.addPipe.nextDescriptor = w.nextDescriptor + 2 := rfl
  rw [size]
  cases effect with
  | buffer place s held => cases s <;> exact pipe
  | endpoint place s => cases s <;> exact pipe
  | graph place s g => cases s <;> exact pipe
  | edge place => exact pipe
  | file place s label name append line fine =>
    exact congrArg (· + 1) (World.passes_readyFile w name (Wiring.fileMode s append)).nextDescriptor
  | given place s held d given =>
    rw [making?, Target.making?, given]
    rfl
  | started => rfl
  | notStarted => rfl

theorem performAll_next {chores : List Chore} {σ σ' : Wiring} {w w' : World}
    (done : (performAll value chores).exec σ w = (.ok (), σ', w')) :
    w'.nextDescriptor = w.nextDescriptor + Making.sizes (makings chores) := by
  induction chores generalizing σ w with
  | nil =>
    cases done
    rfl
  | cons c rest ih =>
    obtain ⟨events, effect⟩ := perform_effect value c σ w
    rw [performAll, Owning.exec_bind] at done
    generalize (c.perform value).exec σ w = result at effect done
    obtain ⟨outcome, σ₁, w₁⟩ := result
    cases outcome with
    | error e => cases done
    | ok _ =>
      have sizes : Making.sizes (makings (c :: rest)) = Making.sizes (makings [c]) +
          Making.sizes (makings rest) := by
        rw [← List.singleton_append, makings_append]
        simp [Making.sizes]
      rw [ih done, effect.next, sizes, Nat.add_assoc]

/-- A chore writes nothing into a pipe. It only adds empty ones. -/
theorem Effect.pipes {value : Claim → Descriptor} {c : Chore} {σ σ' : Wiring} {w w' : World}
    {outcome : Except Failure Unit} {events : List Event} (effect : Effect value σ w c outcome events σ' w') :
    ∃ k, w'.pipes = w.pipes ++ List.replicate k [] := by
  have same : w.pipes = w.pipes ++ List.replicate 0 [] := (List.append_nil _).symm
  cases effect with
  | buffer | endpoint | graph | edge => exact ⟨1, rfl⟩
  | file place s label name append line fine =>
    exact ⟨0, (World.same_readyFile w name (Wiring.fileMode s append)).2.trans same⟩
  | fileRefused | given | started | notStarted | stuck => exact ⟨0, same⟩

theorem performAll_pipes (chores : List Chore) (σ : Wiring) (w : World) :
    ∃ k, ((performAll value chores).exec σ w).2.2.pipes = w.pipes ++ List.replicate k [] := by
  induction chores generalizing σ w with
  | nil => exact ⟨0, (List.append_nil _).symm⟩
  | cons c rest ih =>
    obtain ⟨events, effect⟩ := perform_effect value c σ w
    rw [performAll, Owning.exec_bind]
    generalize (c.perform value).exec σ w = result at effect
    obtain ⟨outcome, σ₁, w₁⟩ := result
    obtain ⟨k, first⟩ := effect.pipes
    cases outcome with
    | error e => exact ⟨k, first⟩
    | ok _ =>
      obtain ⟨n, others⟩ := ih σ₁ w₁
      refine ⟨k + n, others.trans ?_⟩
      rw [first, List.append_assoc, List.replicate_append_replicate]

/-- Doing some chores and then others. -/
theorem performAll_append (a b : List Chore) (σ : Wiring) (w : World) :
    (performAll value (a ++ b)).exec σ w
      = match (performAll value a).exec σ w with
        | (.ok (), σ', w') => (performAll value b).exec σ' w'
        | (.error e, σ', w') => (.error e, σ', w') := by
  induction a generalizing σ w with
  | nil => rfl
  | cons c rest ih =>
    rw [List.cons_append, performAll, performAll, Owning.exec_bind, Owning.exec_bind]
    cases (c.perform value).exec σ w with
    | mk outcome after => cases outcome with
      | ok _ => exact ih after.1 after.2
      | error e => rfl

/-- A step that does some chores and answers a value, wherever the assignment fits. -/
def Follows (m : Wire α) (chores : List Chore) (a : α) : Prop :=
  ∀ σ w, Making.Fit value w.nextDescriptor (makings chores) →
    m.exec σ w = match (performAll value chores).exec σ w with
      | (.ok (), σ', w') => (.ok a, σ', w')
      | (.error e, σ', w') => (.error e, σ', w')

namespace Follows

variable {value}

theorem pure (a : α) : Follows value (pure a) [] a := fun _ _ _ => rfl

theorem bind {m : Wire α} {f : α → Wire β} {chores more : List Chore} {a : α} {b : β}
    (first : Follows value m chores a) (second : Follows value (f a) more b) :
    Follows value (m >>= f) (chores ++ more) b := by
  intro σ w fit
  rw [makings_append] at fit
  rw [Owning.exec_bind, first σ w fit.left, performAll_append]
  cases done : (performAll value chores).exec σ w with
  | mk outcome after => cases outcome with
    | error e => rfl
    | ok _ =>
      have next := performAll_next value done
      exact second after.1 after.2 (next ▸ fit.right)

/-- A single chore. -/
theorem single {m : Wire α} {c : Chore} {a : α}
    (same : ∀ σ w, Making.Fit value w.nextDescriptor (makings [c]) →
      m.exec σ w = match (c.perform value).exec σ w with
        | (.ok (), σ', w') => (.ok a, σ', w')
        | (.error e, σ', w') => (.error e, σ', w')) :
    Follows value m [c] a := by
  intro σ w fit
  rw [same σ w fit, performAll, Owning.exec_bind]
  cases (c.perform value).exec σ w with
  | mk outcome after => cases outcome <;> rfl

/-- A step that is a chore itself. -/
theorem same {m : Wire Unit} {c : Chore} (same : ∀ σ w, m.exec σ w = (c.perform value).exec σ w) :
    Follows value m [c] () := by
  refine .single fun σ w _ => ?_
  rw [same σ w]
  cases (c.perform value).exec σ w with
  | mk outcome after => cases outcome <;> rfl

end Follows

end Chore

namespace Wiring

open Chore

variable {value : Claim → Descriptor}

/-- What a redirect resolves to. -/
def resolvedOf (value : Claim → Descriptor) (place : Place) (outer : Context) (s : Stream)
    (t : Target) : Resolved where
  value := value (.near place s)
  deferred := if t.isGraph then some (outer.set (Graph.farStream s) (value (.far place s)))
    else none

/-- What the redirects of a node resolve to. -/
def nodeOf (value : Claim → Descriptor) (place : Place) (outer : Context) (r : Redirects) :
    ResolvedNode where
  stdin := r.stdin.map fun t => resolvedOf value place outer .stdin t.it
  stdout := r.stdout.map fun t => resolvedOf value place outer .stdout t.it
  stderr := r.stderr.map fun t => resolvedOf value place outer .stderr t.it

/-- What a fitting assignment says of the two ends of the pipe of a redirect. -/
theorem ends_of_fit {place : Place} {s : Stream} {t : Target} {w : World}
    (fit : Making.Fit value w.nextDescriptor (makings [.redirect place s t]))
    (pipe : t.making? place s = some
      (if s = .stdin then .pipe (.near place s) (.far place s)
        else .pipe (.far place s) (.near place s))) :
    value (.near place s) = .number (w.nearEnd s) ∧
      value (.far place s) = .number (w.farEnd s) := by
  have made : makings [.redirect place s t] =
      [if s = .stdin then .pipe (.near place s) (.far place s)
      else .pipe (.far place s) (.near place s)] := by
    simp [makings, making?, pipe]
  rw [made] at fit
  cases s with
  | stdin => exact fit.pipe
  | stdout => exact fit.pipe.symm
  | stderr => exact fit.pipe.symm

theorem follows_resolve (place : Place) (outer : Context) (s : Stream) (t : Target) :
    Follows value (resolve t s outer) [.redirect place s t] (resolvedOf value place outer s t) := by
  refine .single fun σ w fit => ?_
  cases t with
  | file path append =>
    obtain ⟨label, v⟩ := path
    cases v with
    | str name =>
      cases found : Sim.openError? w name (fileMode s append) with
      | none =>
        obtain ⟨line, run⟩ := exec_resolveFile σ label found
        have gets : value (.near place s) = .number w.nextDescriptor := fit.file
        simp only [perform, resolve, Owning.exec_bind, run, Owning.exec_pure, resolvedOf, gets]
        rfl
      | some e => simp only [perform, resolve, Owning.exec_bind, exec_resolveFile_of_error σ found]
    | _ => rfl
  | buffer held =>
    have ends := ends_of_fit fit rfl
    simp only [perform, resolve, Owning.exec_bind, exec_resolveBuffer, Owning.exec_pure,
      resolvedOf, ends.1]
    rfl
  | graph g =>
    have ends := ends_of_fit fit rfl
    simp only [perform, resolve, Owning.exec_bind, exec_resolveGraph, Owning.exec_pure, resolvedOf,
      ends.1, ends.2]
    rfl
  | stream held =>
    cases found : held.it.descriptor? with
    | some d =>
      have made : makings [.redirect place s (.stream held)] = [.given d (.near place s)] := by
        simp [makings, making?, Target.making?, found]
      rw [made] at fit
      simp only [perform, resolve, Owning.exec_bind, exec_resolveStream σ w found, Owning.exec_pure,
        resolvedOf, fit.given]
      rfl
    | none =>
      obtain ⟨e, -, run⟩ := exec_resolveStream_of_none found
      simp only [perform, resolve, Owning.exec_bind, run]
  | endpoint =>
    have ends := ends_of_fit fit rfl
    simp only [perform, resolve, Owning.exec_bind, exec_resolveEndpoint, Owning.exec_pure,
      resolvedOf, ends.1]
    rfl
  | unknown name => rfl
  | stray held => rfl

theorem follows_resolve? (place : Place) (outer : Context) (s : Stream)
    (t : Option (Labelled Target)) :
    Follows value (resolve? t s outer) (t.toList.map fun t => .redirect place s t.it)
      (t.map fun t => resolvedOf value place outer s t.it) := by
  cases t with
  | none => exact .pure none
  | some t => exact (follows_resolve place outer s t.it).bind (.pure _)

theorem follows_resolveNode (place : Place) (outer : Context) (r : Redirects) :
    Follows value (resolveNode r outer) (ofRedirects place r) (nodeOf value place outer r) := by
  have chores : ofRedirects place r = (r.stdin.toList.map fun t => .redirect place .stdin t.it)
      ++ ((r.stdout.toList.map fun t => .redirect place .stdout t.it)
        ++ ((r.stderr.toList.map fun t => .redirect place .stderr t.it) ++ [])) := by
    obtain ⟨stdin, stdout, stderr, label⟩ := r
    cases stdin <;> cases stdout <;> cases stderr <;> rfl
  rw [chores]
  exact (follows_resolve? place outer .stdin r.stdin).bind
    ((follows_resolve? place outer .stdout r.stdout).bind
    ((follows_resolve? place outer .stderr r.stderr).bind (.pure _)))

/-- A context that gives every stream what the nearest claim above gets. -/
def Agrees (value : Claim → Descriptor) (outer : Context) (above : Lineage) : Prop :=
  ∀ s, outer.get s = (above.claim s).map value

theorem get_set (c : Context) (s t : Stream) (d : Descriptor) :
    (c.set s d).get t = if t = s then some d else c.get t := by
  cases s <;> cases t <;> rfl

theorem get_contextOf (claim : Stream → Option Claim) (s : Stream) :
    (contextOf value claim).get s = (claim s).map value := by
  cases s <;> rfl

theorem Agrees.inner {outer : Context} {above : Lineage} (agrees : Agrees value outer above)
    (g : Graph) (s : Stream) :
    ((nodeOf value above.place outer g.redirects).inner outer).get s =
      (g.nearest above s).map value := by
  have here : ((nodeOf value above.place outer g.redirects).inner outer).get s
      = ((g.redirects.get s).map fun _ => value (.near above.place s)).or (outer.get s) := by
    cases s with
    | stdin => simp [ResolvedNode.inner, nodeOf, Context.get, Redirects.get, Function.comp_def,
        resolvedOf]
    | stdout => simp [ResolvedNode.inner, nodeOf, Context.get, Redirects.get, Function.comp_def,
        resolvedOf]
    | stderr => simp [ResolvedNode.inner, nodeOf, Context.get, Redirects.get, Function.comp_def,
        resolvedOf]
  rw [here, agrees s, Graph.nearest, Graph.ownClaim]
  cases g.redirects.get s <;> rfl

/-- The context of a leaf is the one that its nearest claims make. -/
theorem Agrees.contextOf {outer : Context} {above : Lineage} (agrees : Agrees value outer above)
    (g : Graph) :
    (nodeOf value above.place outer g.redirects).inner outer =
      contextOf value (g.nearest above) := by
  have same (s : Stream) := (agrees.inner g s).trans (get_contextOf (g.nearest above) s).symm
  exact congr (congr (congrArg Context.mk (same .stdin)) (same .stdout)) (same .stderr)

theorem Agrees.left {inner : Context} {above : Lineage} {parent : Graph}
    (inside : ∀ s, inner.get s = (parent.nearest above s).map value) {writing : Nat}
    (gets : value (.writing above.place) = .number writing) :
    Agrees value (inner.set .stdout (.number writing)) ((.left, parent) :: above) := by
  intro s
  rw [get_set, Lineage.claim_left, inside, ← gets]
  split <;> rfl

theorem Agrees.right {inner : Context} {above : Lineage} {parent : Graph}
    (inside : ∀ s, inner.get s = (parent.nearest above s).map value) {reading : Nat}
    (gets : value (.reading above.place) = .number reading) :
    Agrees value (inner.set .stdin (.number reading)) ((.right, parent) :: above) := by
  intro s
  rw [get_set, Lineage.claim_right, inside, ← gets]
  split <;> rfl

theorem Agrees.attached {outer : Context} {above : Lineage} (agrees : Agrees value outer above)
    (owner : Graph) (t : Stream) :
    Agrees value (outer.set (Graph.farStream t) (value (.far above.place t)))
      ((.attached t, owner) :: above) := by
  intro s
  rw [get_set, Lineage.claim_attached, agrees s]
  split <;> rfl

/-- The pipe of a pipe node, and what is done with its two ends. -/
theorem follows_edge {α : Type} {place : Place} {k : Nat × Nat → Wire α} {chores : List Chore} {a : α}
    (after : ∀ reading writing : Nat, value (.reading place) = .number reading →
      value (.writing place) = .number writing → Follows value (k (reading, writing)) chores a) :
    Follows value (do
      let p ← Sim.pipe
      forChildren [p.1, p.2]
      k p) (.edge place :: chores) a := by
  intro σ w fit
  have made : makings (.edge place :: chores) = [.pipe (.reading place) (.writing place)] ++
      makings chores := rfl
  rw [made] at fit
  have ends := fit.left.pipe
  have rest := after w.nextDescriptor (w.nextDescriptor + 1) ends.1 ends.2
    (σ.give [w.nextDescriptor, w.nextDescriptor + 1]) w.addPipe fit.right
  simp only [performAll, perform, Owning.exec_bind, Owning.exec_lift, Sim.exec_pipe,
    exec_forChildren]
  exact rest

/-- Whether the walk of a graph does its chores, in every context that agrees with the claims
above. -/
private def Walkable (value : Claim → Descriptor) (g : Graph) : Prop :=
  ∀ {outer : Context} {above : Lineage}, Agrees value outer above →
    Follows value (walk outer g) (g.chores above) ()

private theorem follows_walkTarget? (owner : Graph) (r : Redirects) (s : Stream) {outer : Context}
    {above : Lineage} (agrees : Agrees value outer above)
    (walkable : ∀ g, r.attached? s = some g → Walkable value g) :
    Follows value
      (walkTarget? ((r.get s).map fun t => resolvedOf value above.place outer s t.it) (r.get s))
      (Graph.choresOfTarget? ((.attached s, owner) :: above) (r.get s)) () := by
  cases attached : r.attached? s with
  | none =>
    rw [choresOfTarget?_of_none _ attached]
    rw [Redirects.attached?] at attached
    cases found : r.get s with
    | none => exact .pure ()
    | some t =>
      obtain ⟨label, target⟩ := t
      rw [found] at attached
      cases target <;> first | exact .pure () | cases attached
  | some g =>
    rw [choresOfTarget?_of_attached _ attached]
    have step := walkable g attached (agrees.attached owner s)
    obtain ⟨⟨label, target⟩, found, leads⟩ := Option.bind_eq_some_iff.mp attached
    rw [found]
    cases target <;> cases leads
    exact step

private theorem follows_walkAttached (owner : Graph) (r : Redirects) {outer : Context}
    {above : Lineage} (agrees : Agrees value outer above)
    (walkable : ∀ s g, r.attached? s = some g → Walkable value g) :
    Follows value (walkAttached (nodeOf value above.place outer r) r)
      (Graph.choresOfRedirects owner above r) () := by
  have target (s : Stream) := follows_walkTarget? owner r s agrees (walkable s)
  have stdin := target .stdin
  have stdout := target .stdout
  have stderr := target .stderr
  obtain ⟨toStdin, toStdout, toStderr, label⟩ := r
  exact stdin.bind (stdout.bind stderr)

private theorem follows_walkMembers (owner : Graph) (members : List Graph) {inner : Context}
    {above : Lineage} (inside : ∀ s, inner.get s = (owner.nearest above s).map value) (index : Nat)
    (walkable : ∀ g ∈ members, Walkable value g) :
    Follows value (walkMembers inner members) (Graph.choresOfMembers owner above index members)
      () := by
  induction members generalizing index with
  | nil => exact .pure ()
  | cons g rest ih =>
    have agrees : Agrees value inner ((.member index, owner) :: above) := fun s => by
      rw [inside s, Lineage.claim_member]
    exact (walkable g List.mem_cons_self agrees).bind
      (ih (index + 1) fun g member => walkable g (List.mem_cons_of_mem _ member))

private theorem follows_refuse (e : BuildError) : Follows value (refuse e) [.refuse e] () :=
  .same fun _ _ => rfl

/-- The walk of a graph does the chores of the graph: the contexts that it hands down give every
stream what the nearest claim gets. -/
theorem follows_walk (g : Graph) {outer : Context} {above : Lineage}
    (agrees : Agrees value outer above) :
    Follows value (walk outer g) (g.chores above) () := by
  induction g using Graph.induction generalizing outer above with
  | leaf number command r attached =>
    have node : Follows value _ _ _ := follows_resolveNode above.place outer r
    have rest := follows_walkAttached (.leaf number command r) r agrees fun s g found =>
        attached s g found
    have inside := agrees.contextOf (.leaf number command r)
    refine node.bind ?_
    cases isLeaf : Graph.commandOf (.leaf number command r) with
    | ok c =>
      have start : Follows value (startLeaf c ((nodeOf value above.place outer r).inner outer))
          [.start (.leaf number command r) above] () :=
        .same fun σ w => by rw [perform, isLeaf, ← inside]; rfl
      exact start.bind rest
    | error e =>
      have start : Follows value (refuse e) [.start (.leaf number command r) above] () :=
        .same fun σ w => by rw [perform, isLeaf]
      exact start.bind rest
  | pipe number left right r inLeft inRight attached =>
    have node : Follows value _ _ _ := follows_resolveNode above.place outer r
    have rest := follows_walkAttached (.pipe number left right r) r agrees fun s g found =>
        attached s g found
    have inside := agrees.inner (.pipe number left right r)
    refine node.bind (follows_edge fun reading writing gets gets' => ?_)
    exact (inLeft (Agrees.left inside gets')).bind ((inRight (Agrees.right inside gets)).bind rest)
  | group number label members r inMembers attached =>
    have node : Follows value _ _ _ := follows_resolveNode above.place outer r
    have rest := follows_walkAttached (.group number label members r) r agrees fun s g found =>
        attached s g found
    have inside := agrees.inner (.group number label members r)
    exact node.bind ((follows_walkMembers _ members inside 0 fun g member =>
      inMembers g member).bind rest)
  | unknown number name => exact follows_refuse _
  | stray held => exact follows_refuse _

/-- Starting a graph does its chores, when every claim gets what the next descriptor determines. -/
theorem exec_walk (g : Graph) (σ : Wiring) (w : World) :
    (walk {} g).exec σ w = (performAll (g.values w.nextDescriptor) (g.chores [])).exec σ w := by
  have agrees : Agrees (g.values w.nextDescriptor) {} [] := fun s => by cases s <;> rfl
  rw [follows_walk g agrees σ w (g.fit_values w.nextDescriptor)]
  cases (performAll (g.values w.nextDescriptor) (g.chores [])).exec σ w with
  | mk outcome after => cases outcome <;> rfl

end Wiring

end Pipework
