import Pipework.Proofs.Engine.Takers
import Pipework.Proofs.Wiring.Nodes

/-!
# Looking at a graph tells what starting it does

A graph can be looked at without starting anything: its nodes, its leaves, and the plan that sums them
up. Nodes, leaves, plan and walk are four recursions over the same graph. When a start succeeds they
agree: the commands are started, kept and reported in the order of the leaves, and the pipes and files
that are made can be counted over the nodes.
-/

namespace Pipework

namespace Target

/-- Whether a target is a file. -/
def isFile : Target → Bool
  | .file .. => true
  | _ => false

/-- Whether a target is a buffer. -/
def isBuffer : Target → Bool
  | .buffer _ => true
  | _ => false

end Target

/-- The process that an event starts, with its arguments. A start that the system refuses has none. -/
def Event.launch? : Event → Option (Nat × List Text)
  | spawned pid args .. => some (pid, args)
  | _ => none

/-- A handle that has what a look at its graph tells, after a stretch in which its graph was started. -/
structure Handle.AsPlanned (h : Handle) (plan : Plan) (events : List Event) : Prop where
  /-- The commands are those of the leaves, in order. -/
  commands : h.graph.leaves.map Graph.commandOf = h.commands.map .ok
  /-- The leaves come in the same order among the nodes. -/
  leaves : h.graph.nodes.filter Graph.isLeaf = h.graph.leaves
  /-- Every command was started once, in order, and no other start was tried. -/
  starts : (events.filter Event.isStart).map Event.launch? =
    h.processes.map fun p => some (p.2, p.1.args)
  /-- Whenever they are asked for, the statuses are those of the commands, in order. -/
  statuses : ∀ v, ∃ statuses, Handle.statuses.exec h v = (.ok statuses, h, v) ∧
    statuses.map (fun s => (s.job, s.pid)) =
      h.processes.map fun p => (.command p.1, some (p.2 : Int))
  programs : plan.commands = h.commands.map (·.program)
  leafCount : plan.leafCount = h.commands.length
  /-- The plan counts the pipes between commands; the others are for buffers and for the caller. -/
  pipes : pipesIn events = plan.pipeCount + h.graph.targets.countP Target.isBuffer
    + h.graph.targets.countP Target.isEndpoint
  files : filesIn events = h.graph.targets.countP Target.isFile

namespace Chore

variable (value : Claim → Descriptor)

/-- The events that show what a chore makes. -/
private def shownBy (c : Chore) : List Event := c.making?.toList.filterMap (Making.event? value)

private theorem filterMap_event? (chores : List Chore) :
    (makings chores).filterMap (Making.event? value) = chores.flatMap (shownBy value) := by
  induction chores with
  | nil => rfl
  | cons c rest ih =>
    rw [List.flatMap_cons, ← ih, ← List.singleton_append, makings_append, List.filterMap_append]
    cases made : c.making? <;> simp [makings, shownBy, made]

/-- A chore makes a pipe if it serves a pipe node, or a redirect to a graph, to a buffer or to the
caller. -/
private theorem countP_isPipe (c : Chore) :
    (c.shownBy value).countP Event.isPipe = (if c.isEdge then 1 else 0)
      + c.target?.toList.countP Target.isGraph + c.target?.toList.countP Target.isBuffer
      + c.target?.toList.countP Target.isEndpoint := by
  cases c with
  | redirect place s target =>
    cases target with
    | file path append =>
      obtain ⟨label, v⟩ := path
      cases v <;> rfl
    | stream held =>
      simp only [shownBy, making?, Target.making?]
      cases held.it.descriptor? <;> rfl
    | unknown name => rfl
    | stray held => rfl
    | _ => cases s <;> rfl
  | _ => rfl

/-- A chore that can be done opens a file if it serves a redirect to a file. -/
private theorem countP_isOpening {c : Chore} (possible : c.Possible) :
    (c.shownBy value).countP Event.isOpening = c.target?.toList.countP Target.isFile := by
  cases c with
  | redirect place s target =>
    cases target with
    | file path append =>
      obtain ⟨label, v⟩ := path
      cases v <;> first | rfl | cases possible
    | stream held =>
      simp only [shownBy, making?, Target.making?]
      cases held.it.descriptor? <;> rfl
    | unknown name => rfl
    | stray held => rfl
    | _ => cases s <;> rfl
  | _ => rfl

/-- How many pipes the chores of a graph make. -/
theorem pipesIn_makings (g : Graph) (above : Lineage) :
    ((makings (g.chores above)).filterMap (Making.event? value)).countP Event.isPipe =
      g.nodes.countP Graph.isPipe + g.targets.countP Target.isGraph
        + g.targets.countP Target.isBuffer + g.targets.countP Target.isEndpoint := by
  rw [← countP_isEdge g above, ← filterMap_target? g above, filterMap_event?]
  induction g.chores above with
  | nil => rfl
  | cons c rest ih =>
    have split : (c :: rest).filterMap target? = c.target?.toList ++ rest.filterMap target? := by
      cases found : c.target? <;> simp [found]
    rw [List.flatMap_cons, List.countP_append, countP_isPipe, ih, split, List.countP_append,
      List.countP_append, List.countP_append, List.countP_cons]
    omega

/-- How many files the chores of a graph open. -/
theorem filesIn_makings {g : Graph} {above : Lineage} (possible : ∀ c ∈ g.chores above, c.Possible) :
    ((makings (g.chores above)).filterMap (Making.event? value)).countP Event.isOpening =
      g.targets.countP Target.isFile := by
  rw [← filterMap_target? g above, filterMap_event?]
  generalize g.chores above = chores at possible
  induction chores with
  | nil => rfl
  | cons c rest ih =>
    have split : (c :: rest).filterMap target? = c.target?.toList ++ rest.filterMap target? := by
      cases found : c.target? <;> simp [found]
    rw [List.flatMap_cons, List.countP_append, countP_isOpening value (possible c List.mem_cons_self),
      ih fun d member => possible d (List.mem_cons_of_mem _ member), split, List.countP_append]

end Chore

namespace Graph

/-- The leaves of a graph are those of its nodes that are leaves, in the same order. -/
theorem filter_isLeaf (g : Graph) : g.nodes.filter isLeaf = g.leaves := by
  have collected : (g.chores []).filterMap (fun c => c.leaf?.map (·.1)) =
      g.nodes.flatMap fun n => [n].filter isLeaf :=
    (Chore.OfNodes.ofGraph g []).filterMap_eq fun n above => by
      have first : (Chore.ofRedirects above.place n.redirects).filterMap
          (fun c => c.leaf?.map (·.1)) = [] := by
        refine List.filterMap_eq_nil_iff.mpr fun c member => ?_
        obtain ⟨item, _, rfl⟩ := List.mem_map.mp member
        rfl
      rw [ownChores, List.filterMap_append, first, List.nil_append]
      cases n <;> rfl
  rw [← Chore.leaves_chores g [], Chore.leaves, List.map_filterMap, collected,
    ← List.filter_flatMap, List.flatMap_singleton']

/-- The redirects to graphs, counted by their targets. -/
theorem length_graphs (g : Graph) :
    (g.nodes.flatMap fun n => n.redirects.graphs).length = g.targets.countP Target.isGraph := by
  have same (t : Target) : t.graph?.isSome = t.isGraph := by cases t <;> rfl
  rw [targets, List.countP_flatMap, List.length_flatMap]
  congr 2
  funext n
  simp only [Redirects.graphs, List.length_filterMap_eq_countP, Function.comp_apply, List.countP_map,
    Function.comp_def, same]

/-- A graph that can be started has a plan. -/
theorem plan_eq {g : Graph} (possible : ∀ c ∈ g.chores [], c.Possible) {commands : List Command}
    (leaves : g.leaves.map commandOf = commands.map .ok) :
    g.plan = .ok {
      kind := g.kind
      commands := commands.map (·.program)
      leafCount := g.leaves.length
      pipeCount := g.nodes.countP isPipe + g.targets.countP Target.isGraph
      requiresGroup := g.nodes.any isGroup
      requiresRedirect := g.nodes.any fun n => !n.redirects.isEmpty } := by
  have whole : g.nodes.findSome? stray? = none := by
    refine List.findSome?_eq_none_iff.mpr fun n member => ?_
    cases n with
    | stray held => exact absurd ((Chore.OfNodes.ofGraph g []).stray_mem member) (possible _)
    | _ => rfl
  have all : g.leaves.mapM commandOf = .ok commands := by
    generalize g.leaves = found at leaves
    induction found generalizing commands with
    | nil =>
      cases commands with
      | nil => rfl
      | cons c rest => cases leaves
    | cons leaf rest ih =>
      cases commands with
      | nil => cases leaves
      | cons c others =>
        obtain ⟨first, later⟩ := List.cons.inj leaves
        rw [List.mapM_cons, first, ih later]
        rfl
  rw [← length_graphs, plan, checkWhole, whole, all]
  rfl

end Graph

namespace Engine

variable {item : Item} {values : RedirectValues} {e e' : Engine} {w w' : World} {handle : Handle}

/-- **A look at the graph tells what its start does.** Where a start succeeds, its graph has a plan, and
the commands that were started, the handle's commands and its statuses are the leaves in order; the
pipes and files that were made are those that the plan and the redirects of the nodes count. -/
theorem spawn_follows_plan (sound : w.Sound)
    (spawned : (spawn item values).exec e w = (.ok handle, e', w')) :
    ∃ events plan, w'.events = w.events ++ events ∧ handle.graph.plan = .ok plan ∧
      handle.AsPlanned plan events := by
  obtain ⟨w₁, w₂, σ, events, launching, starts, succeeds⟩ := spawn_ok sound spawned
  have shown := succeeds.shows sound
  have progress := succeeds.progress
  -- Every start succeeded, so the wiring's list has one entry for each of them.
  have processes : handle.processes =
      starts.map fun s => (s.command, (s.process?.map (·.pid)).getD 0) := by
    rw [succeeds.handle]
    refine progress.roster.entries.trans
      (List.filterMap_eq_map_iff_forall_eq_some.mpr fun s member => ?_)
    obtain ⟨p, result⟩ := shown.started s member
    rw [Start.entry?, Start.process?, result]
    rfl
  have leaves : handle.graph.leaves = starts.map (·.leaf) := by
    rw [← Graph.map_fst_occurrences, ← shown.occurrences, List.map_map]
    rfl
  have commands : handle.commands = starts.map (·.command) := by
    rw [Handle.commands, processes, List.map_map]
    rfl
  have held : handle.graph.leaves.map Graph.commandOf = handle.commands.map .ok := by
    rw [leaves, commands, List.map_map, List.map_map]
    exact List.map_congr_left progress.roster.commands
  have makings {kind : Event → Bool} (making : ∀ event, kind event → event.isMaking) :
      (events ++ (σ.childDescriptors ++ σ.files).map Event.closed ++ launching).countP kind =
        ((Chore.makings (handle.graph.chores [])).filterMap
          (Making.event? (handle.graph.values w.nextDescriptor))).countP kind := by
    rw [← shown.made, List.countP_filter]
    refine List.countP_congr fun event _ => ?_
    simpa using fun isKind => making event isKind
  have trace := succeeds.account.trace
  rw [succeeds.begins.passes.trace, List.append_nil] at trace
  refine ⟨_, _, trace, Graph.plan_eq progress.possible held,
    { commands := held
      leaves := handle.graph.filter_isLeaf
      starts := ?_
      statuses := fun v => ⟨_, rfl, ?_⟩
      programs := rfl
      leafCount := ?_
      pipes := ?_
      files := ?_ }⟩
  · rw [shown.shown, processes, List.map_map, List.map_map]
    refine List.map_congr_left fun s member => ?_
    obtain ⟨p, result⟩ := shown.started s member
    simp only [Function.comp_apply, Start.event, Start.process?, result]
    rfl
  · rw [Handle.statusesIn, List.map_map]
    rfl
  · rw [leaves, commands, List.length_map, List.length_map]
  · rw [pipesIn, makings fun event isPipe => by cases event <;> first | rfl | cases isPipe]
    exact Chore.pipesIn_makings _ handle.graph []
  · rw [filesIn, makings fun event isOpening => by cases event <;> first | rfl | cases isOpening]
    exact Chore.filesIn_makings _ progress.possible

/-- The plan of the small graph tells of two pipes between commands; the other two are for the buffer
and for the caller. -/
theorem spawn_small_follows_plan :
    ∃ handle e' w' plan events,
      (spawn smallGraph.toItem {}).exec {} (smallWorld ['a', 'b']) = (.ok handle, e', w') ∧
      w'.events = events ∧ handle.graph.plan = .ok plan ∧ handle.AsPlanned plan events ∧
      plan.commands = [[.char 'a'], [.char 'b'], [.char 'a']] ∧ plan.pipeCount = 2 ∧
      pipesIn events = 4 := by
  have succeeds : ((spawn smallGraph.toItem {}).exec {} (smallWorld ['a', 'b'])).1.isOk = true := by
    decide +kernel
  have plans : ((spawn smallGraph.toItem {}).exec {} (smallWorld ['a', 'b'])).1.toOption.map
      (fun handle => handle.graph.plan.toOption.map fun plan => (plan.commands, plan.pipeCount)) =
        some (some ([[.char 'a'], [.char 'b'], [.char 'a']], 2)) := by
    decide +kernel
  have pipes : pipesIn ((spawn smallGraph.toItem {}).exec {} (smallWorld ['a', 'b'])).2.2.events = 4 := by
    decide +kernel
  generalize run : (spawn smallGraph.toItem {}).exec {} (smallWorld ['a', 'b']) =
    result at succeeds plans pipes
  obtain ⟨outcome, e', w'⟩ := result
  cases outcome with
  | error failure => cases succeeds
  | ok handle =>
    obtain ⟨events, plan, trace, planned, as⟩ := spawn_follows_plan (smallWorld_sound ['a', 'b']) run
    have all : w'.events = events := trace
    rw [Except.toOption, Option.map_some, planned] at plans
    have shown := Prod.mk.inj (Option.some.inj (Option.some.inj plans))
    exact ⟨handle, e', w', plan, events, rfl, all, planned, as, shown.1, shown.2, all ▸ pipes⟩

end Engine

end Pipework
