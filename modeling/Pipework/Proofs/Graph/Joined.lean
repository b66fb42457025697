import Pipework.Graph.Build
import Pipework.Proofs.Graph.Nodes

/-!
# Graphs that the builders make

Piping, redirecting and chaining stages refuse whatever would shadow an older redirect. So of the
graphs that they make from commands the following holds, and it holds again of whatever is made from
such graphs (`Graph.Built.joined`): a node redirects a stream only where nothing inside it does, the
two sides of a pipe are free at the ends that the pipe joins, and a graph that a redirect leads to is
free at the end that the redirect connects.
-/

namespace Pipework

/-! ## What is built -/

/-- The graph that a value brings into what is built from it. -/
def Value.brings? : Value → Option Graph
  | .graph g => some g
  | .target (.graph g) => some g
  | _ => Option.none

/-- A graph that is made from commands by piping, redirecting and chaining stages, from commands and
from graphs that were made in this way. -/
inductive Graph.Built : Graph → Prop
  | pipe {left right : Item} {n n' : Nat} {g : Graph}
      (fromLeft : ∀ h, left.it.brings? = some h → Built h)
      (fromRight : ∀ h, right.it.brings? = some h → Built h)
      (made : (Graph.pipeInto left right).run n = .ok (g, n')) : Built g
  | redirect {item : Item} {values : RedirectValues} {append : Bool} {n n' : Nat} {g : Graph}
      (fromItem : ∀ h, item.it.brings? = some h → Built h)
      (fromValues : ∀ s h, (values.get s).it.brings? = some h → Built h)
      (made : (Graph.redirect item values append).run n = .ok (g, n')) : Built g
  | pipeline {stages : List Item} {values : RedirectValues} {append : Bool} {n n' : Nat} {g : Graph}
      (fromStages : ∀ stage ∈ stages, ∀ h, stage.it.brings? = some h → Built h)
      (fromValues : ∀ s h, (values.get s).it.brings? = some h → Built h)
      (made : (Graph.pipeline stages values append).run n = .ok (g, n')) : Built g

/-! ## What holds of it -/

namespace Graph

/-- The redirect inside a node that governs a stream of the node, where the node itself has none. -/
def within : Graph → Stream → Option (Labelled Target)
  | .pipe _ left _ _, .stdin => left.boundary .stdin
  | .pipe _ _ right _, .stdout => right.boundary .stdout
  | _, _ => none

theorem boundary_eq (g : Graph) (s : Stream) :
    g.boundary s = (g.redirects.get s).or (g.within s) := by
  cases g with
  | leaf number command r => exact (Option.or_none).symm
  | pipe number left right r =>
    unfold boundary
    cases own : r.get s <;> cases s <;> simp [redirects, within, own]
  | group number label members r => exact (Option.or_none).symm
  | unknown number name => exact (Option.or_none).symm
  | stray held => exact (Option.or_none).symm

/-- A graph in which no redirect and no pipe is in the way of another one. -/
inductive Joined : Graph → Prop
  | leaf {number : Nat} {command : Item} {r : Redirects}
      (attached : ∀ s h, r.attached? s = some h → Joined h)
      (connected : ∀ s h, r.attached? s = some h → h.boundary (farStream s) = none) :
      Joined (.leaf number command r)
  | pipe {number : Nat} {left right : Graph} {r : Redirects} (isLeft : Joined left)
      (isRight : Joined right) (output : left.boundary .stdout = none)
      (input : right.boundary .stdin = none)
      (own : ∀ s, (r.get s).isSome → (Graph.pipe number left right r).within s = none)
      (attached : ∀ s h, r.attached? s = some h → Joined h)
      (connected : ∀ s h, r.attached? s = some h → h.boundary (farStream s) = none) :
      Joined (.pipe number left right r)

namespace Joined

variable {g h : Graph} {s : Stream}

theorem attached_joined (joined : g.Joined) (leads : g.redirects.attached? s = some h) : h.Joined := by
  cases joined with
  | leaf attached connected => exact attached s h leads
  | pipe isLeft isRight output input own attached connected => exact attached s h leads

theorem attached_free (joined : g.Joined) (leads : g.redirects.attached? s = some h) :
    h.boundary (farStream s) = none := by
  cases joined with
  | leaf attached connected => exact connected s h leads
  | pipe isLeft isRight output input own attached connected => exact connected s h leads

/-- Where a node redirects a stream itself, nothing inside it does. -/
theorem within_of_redirect (joined : g.Joined) (redirected : (g.redirects.get s).isSome) :
    g.within s = none := by
  cases joined with
  | leaf attached connected => rfl
  | pipe isLeft isRight output input own attached connected => exact own s redirected

/-- A command without redirects. -/
theorem command (number : Nat) (command : Item) : Joined (.leaf number command {}) :=
  .leaf (fun s h leads => by cases s <;> cases leads) (fun s h leads => by cases s <;> cases leads)

/-- Redirects are added where nothing was redirected, to graphs that are free at the end that is
connected. -/
theorem redirected (joined : g.Joined) {number : Nat} {r : Redirects} {g' : Graph}
    (made : g.withRedirects? number r = some g')
    (fine : ∀ s t, r.get s = some t → g.redirects.get s = some t ∨
      g.boundary s = none ∧ ∀ h, t.it.graph? = some h → h.Joined ∧ h.boundary (farStream s) = none) :
    g'.Joined := by
  have target : ∀ s h, r.attached? s = some h → h.Joined ∧ h.boundary (farStream s) = none := by
    intro s h leads
    obtain ⟨t, found, isGraph⟩ := Option.bind_eq_some_iff.mp leads
    rcases fine s t found with old | ⟨-, new⟩
    · have leads : g.redirects.attached? s = some h := Option.bind_eq_some_iff.mpr ⟨t, old, isGraph⟩
      exact ⟨joined.attached_joined leads, joined.attached_free leads⟩
    · exact new h isGraph
  have inside : ∀ s, (r.get s).isSome → g.within s = none := by
    intro s redirected
    obtain ⟨t, found⟩ := Option.isSome_iff_exists.mp redirected
    rcases fine s t found with old | ⟨free, -⟩
    · exact joined.within_of_redirect (Option.isSome_iff_exists.mpr ⟨t, old⟩)
    · rw [boundary_eq, Option.or_eq_none_iff] at free
      exact free.2
  cases joined with
  | leaf attached connected =>
    cases made
    exact .leaf (fun s h leads => (target s h leads).1) fun s h leads => (target s h leads).2
  | pipe isLeft isRight output input own attached connected =>
    cases made
    refine .pipe isLeft isRight output input (fun s redirected => ?_)
      (fun s h leads => (target s h leads).1) fun s h leads => (target s h leads).2
    have free := inside s redirected
    cases s <;> exact free

end Joined

end Graph

/-! ## Steps of building -/

namespace Building

variable {α β : Type} {n n' : Nat}

theorem bind_ok {x : Building α} {f : α → Building β} {b : β}
    (ran : (x >>= f).run n = .ok (b, n')) :
    ∃ a m, x.run n = .ok (a, m) ∧ (f a).run m = .ok (b, n') := by
  rw [StateT.run_bind] at ran
  cases first : x.run n with
  | error e =>
    rw [first] at ran
    cases ran
  | ok result =>
    obtain ⟨a, m⟩ := result
    rw [first] at ran
    exact ⟨a, m, rfl, ran⟩

theorem pure_ok {a b : α} (ran : (pure a : Building α).run n = .ok (b, n')) : a = b := by
  cases ran
  rfl

theorem lift_ok {x : Except BuildError α} {a : α} (ran : (liftM x : Building α).run n = .ok (a, n')) :
    x = .ok a := by
  cases x with
  | error e => cases ran
  | ok b =>
    cases ran
    rfl

theorem throw_ok {e : BuildError} {a : α} (ran : (throw e : Building α).run n = .ok (a, n')) : False := by
  cases ran

end Building

/-! ## The builders -/

/-- Whatever graph an item brings is joined. -/
def Item.BringsJoined (i : Item) : Prop := ∀ h, i.it.brings? = some h → h.Joined

namespace Target

theorem fresh_ok {t : Target} {made? : Option (Labelled Target)} {n n' : Nat}
    (made : (fresh t).run n = .ok (made?, n')) : made?.map (·.it) = some t := by
  obtain ⟨label, m, -, rest⟩ := Building.bind_ok made
  rw [← Building.pure_ok rest]
  rfl

/-- A target that is given leads where it led before. -/
private theorem graph?_of_given {label : Label} {u : Target} {s : Stream} {append : Bool}
    {t : Labelled Target} {n n' : Nat}
    (made : (ofItem? ⟨label, .target u⟩ s append).run n = .ok (some t, n')) :
    t.it.graph? = u.graph? := by
  cases u with
  | file path append' => cases s <;> cases append' <;> cases made <;> rfl
  | buffer held | graph g | stream held | endpoint | unknown name | stray held =>
    cases made
    rfl

/-- A redirect leads to a graph that was joined before, or to a new leaf. -/
theorem joined_of_ofItem? {i : Item} (joined : i.BringsJoined) {s : Stream} {append : Bool}
    {t : Labelled Target} {n n' : Nat} (made : (ofItem? i s append).run n = .ok (some t, n'))
    {h : Graph} (leads : t.it.graph? = some h) : h.Joined := by
  obtain ⟨label, value⟩ := i
  have fresh {u : Target} {m : Nat} (made : (fresh u).run m = .ok (some t, n')) :
      u.graph? = some h := by
    have same := Option.some.inj (fresh_ok made)
    rw [← same]
    exact leads
  have noGraph {u : Target} {m : Nat} (made : (Target.fresh u).run m = .ok (some t, n'))
      (other : u.graph? = none) : h.Joined := by
    rw [fresh made] at other
    cases other
  have noTarget {e : BuildError} {m : Nat}
      (failed : (throw e : Building (Option (Labelled Target))).run m = .ok (some t, n')) : h.Joined :=
    (Building.throw_ok failed).elim
  cases value with
  | none => cases made
  | target u =>
    have same := (graph?_of_given made).symm.trans leads
    cases u with
    | graph g =>
      cases same
      exact joined h rfl
    | _ => cases same
  | graph g =>
    cases fresh made
    exact joined h rfl
  | command c words =>
    obtain ⟨leaf, m, isLeaf, rest⟩ := Building.bind_ok made
    cases fresh rest
    obtain ⟨number, k, -, isLeaf⟩ := Building.bind_ok isLeaf
    rw [← Building.pure_ok isLeaf]
    exact .command number _
  | bool b => exact noTarget made
  | int z => exact noGraph made rfl
  | file descriptor => exact noGraph made rfl
  | bytes b =>
    unfold ofItem? at made
    dsimp only at made
    split at made
    · exact noGraph made rfl
    · exact noTarget made
  | view b =>
    unfold ofItem? at made
    dsimp only at made
    split at made
    · obtain ⟨label', m, -, rest⟩ := Building.bind_ok made
      exact noGraph rest rfl
    · exact noTarget made
  | _ =>
    unfold ofItem? at made
    dsimp only at made
    split at made
    · obtain ⟨label', m, -, rest⟩ := Building.bind_ok made
      exact noGraph rest rfl
    · split at made
      · exact noGraph made rfl
      · exact noTarget made

end Target

namespace Graph

variable {n n' : Nat} {g : Graph}

theorem ofItem_joined {i : Item} (joined : i.BringsJoined) (made : (ofItem i).run n = .ok (g, n')) :
    g.Joined := by
  obtain ⟨label, value⟩ := i
  cases value with
  | graph h =>
    cases made
    exact joined g rfl
  | command c words =>
    obtain ⟨number, m, -, rest⟩ := Building.bind_ok made
    rw [← Building.pure_ok rest]
    exact .command number _
  | _ => exact (Building.throw_ok made).elim

theorem isTaken_ok {s : Stream} {taken : Bool} (asked : isTaken g s = .ok taken) :
    taken = (g.boundary s).isSome := by
  unfold isTaken at asked
  split at asked <;> cases asked
  rfl

/-- What comes after the question whether a stream is taken only comes if it is free. -/
theorem free_of_ok {α : Type} {s : Stream} {e : BuildError} {next : Unit → Building α} {a : α}
    (made : (do
      let taken ← liftM (isTaken g s)
      if taken then do
        let r ← throw e
        next r
      else next () : Building α).run n = .ok (a, n')) :
    g.boundary s = none ∧ ∃ m, (next ()).run m = .ok (a, n') := by
  obtain ⟨taken, m, asked, made⟩ := Building.bind_ok made
  have isSome := isTaken_ok (Building.lift_ok asked)
  cases taken with
  | true => exact (Building.throw_ok made).elim
  | false => exact ⟨Option.isNone_iff_eq_none.mp (Option.isSome_eq_false_iff.mp isSome.symm), m, made⟩

/-- A pipe joins two free ends. -/
theorem pipeInto_joined {left right : Item} (isLeft : left.BringsJoined) (isRight : right.BringsJoined)
    (made : (pipeInto left right).run n = .ok (g, n')) : g.Joined := by
  obtain ⟨up, _, madeUp, made⟩ := Building.bind_ok made
  obtain ⟨down, _, madeDown, made⟩ := Building.bind_ok made
  obtain ⟨output, _, made⟩ := free_of_ok made
  obtain ⟨input, _, made⟩ := free_of_ok made
  obtain ⟨_, _, -, made⟩ := Building.bind_ok made
  obtain ⟨number, _, -, made⟩ := Building.bind_ok made
  rw [← Building.pure_ok made]
  refine .pipe (ofItem_joined isLeft madeUp) (ofItem_joined isRight madeDown) output input ?_ ?_ ?_ <;>
    intro s <;> cases s <;> nofun

/-- What is added to a stream of a node: the stream was free, and so is the end of a graph that it is
connected to. -/
theorem claim_ok {values : RedirectValues} {append : Bool} {s : Stream} {t : Labelled Target}
    (joined : (values.get s).BringsJoined)
    (made : (claim g values append s).run n = .ok (some t, n')) :
    g.boundary s = none ∧ ∀ h, t.it.graph? = some h → h.Joined ∧ h.boundary (farStream s) = none := by
  obtain ⟨target?, m, madeTarget, made⟩ := Building.bind_ok made
  cases target? with
  | none => cases made
  | some u =>
  obtain ⟨free, _, made⟩ := free_of_ok made
  refine ⟨free, fun h leads => ?_⟩
  cases leadsTo : u.it.graph? with
  | none =>
    simp only [leadsTo] at made
    cases Building.pure_ok made
    rw [leads] at leadsTo
    cases leadsTo
  | some other =>
  simp only [leadsTo] at made
  obtain ⟨freeOther, _, made⟩ := free_of_ok made
  cases Building.pure_ok made
  cases leadsTo.symm.trans leads
  exact ⟨Target.joined_of_ofItem? joined madeTarget leads, freeOther⟩

end Graph

namespace Redirects

theorem get_set (r : Redirects) (s u : Stream) (t : Labelled Target) :
    (r.set s t).get u = if u = s then some t else r.get u := by
  cases s <;> cases u <;> rfl

theorem get_of_mem_items {r : Redirects} {s : Stream} {t : Labelled Target}
    (member : (s, t) ∈ r.items) : r.get s = some t := by
  obtain ⟨u, -, found⟩ := List.mem_filterMap.mp member
  obtain ⟨t', redirected, same⟩ := Option.map_eq_some_iff.mp found
  cases same
  exact redirected

theorem mem_items {r : Redirects} {s : Stream} {t : Labelled Target} (given : r.get s = some t) :
    (s, t) ∈ r.items :=
  List.mem_filterMap.mpr ⟨s, by cases s <;> decide, congrArg (Option.map _) given⟩

private theorem get_foldl_set {items : List (Stream × Labelled Target)} {r : Redirects} {s : Stream}
    {t : Labelled Target} (found : (items.foldl (fun r (s, t) => r.set s t) r).get s = some t) :
    (s, t) ∈ items ∨ r.get s = some t := by
  induction items generalizing r with
  | nil => exact .inr found
  | cons item items ih =>
    obtain ⟨u, t'⟩ := item
    rcases ih found with later | before
    · exact .inl (List.mem_cons_of_mem _ later)
    · rw [get_set] at before
      split at before
      · next same =>
        cases before
        exact .inl (same ▸ List.mem_cons_self)
      · exact .inr before

/-- Of one stream the last target counts. -/
private theorem get_foldl_set_of_only {items : List (Stream × Labelled Target)} {r : Redirects} {s : Stream}
    {t : Labelled Target} (given : r.get s = some t ∨ (s, t) ∈ items) (only : ∀ t', (s, t') ∈ items → t' = t) :
    (items.foldl (fun r (s, t) => r.set s t) r).get s = some t := by
  induction items generalizing r with
  | nil => exact given.resolve_right List.not_mem_nil
  | cons item items ih =>
    obtain ⟨u, t'⟩ := item
    have others : ∀ t', (s, t') ∈ items → t' = t := fun t' member => only t' (List.mem_cons_of_mem _ member)
    refine ih ?_ others
    rw [get_set]
    by_cases same : s = u
    · rw [if_pos same, only t' (same ▸ List.mem_cons_self)]
      exact .inl rfl
    · rw [if_neg same]
      refine given.imp_right fun member => (List.mem_cons.mp member).resolve_left fun equal => ?_
      exact same (congrArg Prod.fst equal)

/-- What is added to redirects takes the place of what was there. -/
theorem get_ofItems_append {items : List (Stream × Labelled Target)} {added r : Redirects} {s : Stream}
    {t : Labelled Target} {n n' : Nat} (made : (ofItems (items ++ added.items)).run n = .ok (r, n'))
    (isAdded : added.get s = some t) : r.get s = some t := by
  obtain ⟨label, _, -, made⟩ := Building.bind_ok made
  rw [← Building.pure_ok made, List.foldl_append]
  refine get_foldl_set_of_only (.inr ?_) fun t' member => ?_
  · exact mem_items isAdded
  · exact Option.some.inj ((get_of_mem_items member).symm.trans isAdded)

/-- New redirects are those that they are made of. -/
theorem mem_of_ofItems {items : List (Stream × Labelled Target)} {r : Redirects} {s : Stream}
    {t : Labelled Target} {n n' : Nat} (made : (ofItems items).run n = .ok (r, n'))
    (found : r.get s = some t) : (s, t) ∈ items := by
  obtain ⟨label, _, -, made⟩ := Building.bind_ok made
  rw [← Building.pure_ok made] at found
  rcases get_foldl_set found with member | before
  · exact member
  · cases s <;> cases before

end Redirects

namespace Graph

variable {n n' : Nat} {g : Graph}

/-- Redirecting adds only what was free. -/
theorem redirect_joined {item : Item} {values : RedirectValues} {append : Bool}
    (isItem : item.BringsJoined) (isValue : ∀ s, (values.get s).BringsJoined)
    (made : (redirect item values append).run n = .ok (g, n')) : g.Joined := by
  obtain ⟨node, _, madeNode, made⟩ := Building.bind_ok made
  have joined := ofItem_joined isItem madeNode
  obtain ⟨stdin, _, madeStdin, made⟩ := Building.bind_ok made
  obtain ⟨stdout, _, madeStdout, made⟩ := Building.bind_ok made
  obtain ⟨stderr, _, madeStderr, made⟩ := Building.bind_ok made
  dsimp only at made
  split at made
  · cases Building.pure_ok made
    exact joined
  obtain ⟨_, _, -, made⟩ := Building.bind_ok made
  obtain ⟨r, _, madeR, made⟩ := Building.bind_ok made
  obtain ⟨number, _, -, made⟩ := Building.bind_ok made
  split at made
  case h_2 => exact (Building.throw_ok made).elim
  case h_1 redirected same =>
  cases Building.pure_ok made
  refine joined.redirected same fun s t found => ?_
  rcases List.mem_append.mp (Redirects.mem_of_ofItems madeR found) with old | new
  · exact .inl (Redirects.get_of_mem_items old)
  · have added := Redirects.get_of_mem_items new
    cases s with
    | stdin =>
      cases added
      exact .inr (claim_ok (isValue .stdin) madeStdin)
    | stdout =>
      cases added
      exact .inr (claim_ok (isValue .stdout) madeStdout)
    | stderr =>
      cases added
      exact .inr (claim_ok (isValue .stderr) madeStderr)

/-- A graph that is joined, as an item. -/
private theorem toItem_bringsJoined (joined : g.Joined) : g.toItem.BringsJoined := by
  have isNode : g.toItem = ⟨.own g.number, .graph g⟩ := by cases joined <;> rfl
  intro h same
  rw [isNode] at same
  cases same
  exact joined

private theorem chain_joined {stages : List Item} (joined : g.Joined)
    (isStage : ∀ stage ∈ stages, stage.BringsJoined) {g' : Graph}
    (made : (chain g stages).run n = .ok (g', n')) : g'.Joined := by
  induction stages generalizing g n with
  | nil =>
    cases Building.pure_ok made
    exact joined
  | cons stage rest ih =>
    obtain ⟨next, _, madeNext, made⟩ := Building.bind_ok made
    have nextJoined := pipeInto_joined (toItem_bringsJoined joined)
      (isStage stage List.mem_cons_self) madeNext
    exact ih nextJoined (fun other member => isStage other (List.mem_cons_of_mem _ member)) made

/-- A path among the stages brings no graph; taking it for a redirect changes nothing else. -/
private theorem takeInput_ok {stages stages' : List Item} {values values' : RedirectValues}
    (isStage : ∀ stage ∈ stages, stage.BringsJoined) (isValue : ∀ s, (values.get s).BringsJoined)
    (taken : takeInput stages values = .ok (stages', values')) :
    (∀ stage ∈ stages', stage.BringsJoined) ∧ ∀ s, (values'.get s).BringsJoined := by
  unfold takeInput at taken
  split at taken
  case h_2 =>
    cases taken
    exact ⟨isStage, isValue⟩
  case h_1 first second rest =>
  split at taken
  · split at taken
    · cases taken
      refine ⟨fun stage member => isStage stage (List.mem_cons_of_mem _ member), fun s => ?_⟩
      cases s with
      | stdin => exact isStage first List.mem_cons_self
      | stdout => exact isValue .stdout
      | stderr => exact isValue .stderr
    · cases taken
  · cases taken
    exact ⟨isStage, isValue⟩

private theorem takeOutput_ok {stages stages' : List Item} {values values' : RedirectValues}
    (isStage : ∀ stage ∈ stages, stage.BringsJoined) (isValue : ∀ s, (values.get s).BringsJoined)
    (taken : takeOutput stages values = .ok (stages', values')) :
    (∀ stage ∈ stages', stage.BringsJoined) ∧ ∀ s, (values'.get s).BringsJoined := by
  unfold takeOutput at taken
  split at taken
  case h_2 =>
    cases taken
    exact ⟨isStage, isValue⟩
  case h_1 last second rest reversed =>
  have among : ∀ stage ∈ last :: second :: rest, stage.BringsJoined := fun stage member =>
    isStage stage (List.mem_reverse.mp (reversed ▸ member))
  split at taken
  · split at taken
    · cases taken
      refine ⟨fun stage member =>
        among stage (List.mem_cons_of_mem _ (List.mem_reverse.mp member)), fun s => ?_⟩
      cases s with
      | stdin => exact isValue .stdin
      | stdout => exact among last List.mem_cons_self
      | stderr => exact isValue .stderr
    · cases taken
  · cases taken
    exact ⟨isStage, isValue⟩

/-- Stages are joined by pipes, and the whole is redirected. -/
theorem pipeline_joined {stages : List Item} {values : RedirectValues} {append : Bool}
    (isStage : ∀ stage ∈ stages, stage.BringsJoined) (isValue : ∀ s, (values.get s).BringsJoined)
    (made : (pipeline stages values append).run n = .ok (g, n')) : g.Joined := by
  unfold pipeline at made
  split at made
  · exact (Building.throw_ok made).elim
  obtain ⟨⟨stages₁, values₁⟩, _, input, made⟩ := Building.bind_ok made
  obtain ⟨isStage₁, isValue₁⟩ := takeInput_ok isStage isValue (Building.lift_ok input)
  obtain ⟨⟨stages₂, values₂⟩, _, output, made⟩ := Building.bind_ok made
  obtain ⟨isStage₂, isValue₂⟩ := takeOutput_ok isStage₁ isValue₁ (Building.lift_ok output)
  cases stages₂ with
  | nil => exact (Building.throw_ok made).elim
  | cons first rest =>
    obtain ⟨start, _, madeStart, made⟩ := Building.bind_ok made
    obtain ⟨joined, _, madeChain, made⟩ := Building.bind_ok made
    have isStart := ofItem_joined (isStage₂ first List.mem_cons_self) madeStart
    have isChain := chain_joined isStart
      (fun stage member => isStage₂ stage (List.mem_cons_of_mem _ member)) madeChain
    exact redirect_joined (toItem_bringsJoined isChain) isValue₂ made

/-- What the builders make is joined. -/
theorem Built.joined (built : g.Built) : g.Joined := by
  induction built with
  | pipe fromLeft fromRight made isLeft isRight => exact pipeInto_joined isLeft isRight made
  | redirect fromItem fromValues made isItem isValue => exact redirect_joined isItem isValue made
  | pipeline fromStages fromValues made isStage isValue => exact pipeline_joined isStage isValue made

end Graph

end Pipework
