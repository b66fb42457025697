import Pipework.Proofs.Engine.Handover

/-!
# The streams of the commands

Which streams the commands of a graph are started with can be said from below: for every command and
every stream, the nearest claim on the way up to the root decides. The walk that hands contexts down
gives the same streams, in any nesting of pipes, groups and graphs that redirects lead to. Every
claim is made once, so two streams share a descriptor that was opened for the graph only if the same
claim decides both.
-/

namespace Pipework

/-- The descriptor that a stream gets from a claim on something opened, if such a claim decides
it. -/
def Graph.openedFor (g : Graph) (value : Claim → Descriptor) (o : Graph × Lineage) (s : Stream) :
    Option Descriptor :=
  ((o.1.nearest o.2 s).filter (· ∈ g.allocated)).map value

/-- The event of a command that is started on what its nearest claims get. -/
def Graph.spawnedAt (value : Claim → Descriptor) (o : Graph × Lineage) (process : Command × Nat) :
    Event :=
  .spawned process.2 process.1.args ((o.1.nearest o.2 .stdin).map value)
    ((o.1.nearest o.2 .stdout).map value)
    ((o.1.nearest o.2 .stderr).map value)

/-- A graph whose commands were started on what their nearest claims get. -/
structure Graph.WiredByClaims (g : Graph) (value : Claim → Descriptor) (w : World)
    (processes : List (Command × Nat)) (events : List Event) : Prop where
  /-- Every leaf that stands in the graph was started once. -/
  commands : g.occurrences.map (·.1.commandOf) = processes.map fun p => .ok p.1
  /-- Every stream is what its nearest claim gets, and the host's where there is none. -/
  spawned : events.filter Event.isStart = List.zipWith (Graph.spawnedAt value) g.occurrences
      processes
  /-- Every claim that decides a stream is a claim of the graph. -/
  known : ∀ o ∈ g.occurrences, ∀ s c, o.1.nearest o.2 s = some c → c ∈ Chore.claims (g.chores [])
  once : (Chore.claims (g.chores [])).Nodup
  /-- What the claims ask for is made once, in their order, and the trace shows which descriptors
  they get. -/
  made : events.filter Event.isMaking = (Chore.makings (g.chores [])).filterMap
      (Making.event? value)
  /-- A descriptor of the caller is passed on as it is. -/
  given : ∀ d c, .given d c ∈ Chore.makings (g.chores []) → value c = d
  /-- Everything else is new. -/
  fresh : ∀ c ∈ g.allocated, ∃ n : Nat, value c = .number n ∧ w.nextDescriptor ≤ n
  /-- Two streams get the same opened descriptor exactly if they have the same nearest claim. -/
  same : ∀ o o' s s' d, g.openedFor value o s = some d →
    (g.openedFor value o' s' = some d ↔ o'.1.nearest o'.2 s' = o.1.nearest o.2 s)

namespace Engine

variable {item : Item} {values : RedirectValues} {e e' : Engine} {w w' : World} {handle : Handle}

private theorem map_event (value : Claim → Descriptor) {starts : List Start}
    (started : ∀ s ∈ starts, ∃ p, s.result = .ok p) :
    starts.map (Start.event value)
      = List.zipWith (Graph.spawnedAt value) (starts.map fun s => (s.leaf, s.above))
        (starts.filterMap Start.entry?) := by
  induction starts with
  | nil => rfl
  | cons s rest ih =>
    obtain ⟨p, result⟩ := started s List.mem_cons_self
    have entry : s.entry? = some (s.command, p.pid) := by
      rw [Start.entry?, Start.process?, result]; rfl
    have event : s.event value = Graph.spawnedAt value (s.leaf, s.above) (s.command, p.pid) := by
      rw [Start.event, result]
      rfl
    rw [List.map_cons, List.map_cons, List.filterMap_cons_some entry, List.zipWith_cons_cons, event,
      ih fun t member => started t (List.mem_cons_of_mem _ member)]

private theorem map_command {starts : List Start} (started : ∀ s ∈ starts, ∃ p, s.result = .ok p)
    (commands : ∀ s ∈ starts, s.leaf.commandOf = .ok s.command) :
    (starts.map fun s => (s.leaf, s.above)).map (·.1.commandOf) =
      (starts.filterMap Start.entry?).map fun p => .ok p.1 := by
  induction starts with
  | nil => rfl
  | cons s rest ih =>
    obtain ⟨p, result⟩ := started s List.mem_cons_self
    have entry : s.entry? = some (s.command, p.pid) := by
      rw [Start.entry?, Start.process?, result]; rfl
    rw [List.map_cons, List.map_cons, List.filterMap_cons_some entry, List.map_cons,
      commands s List.mem_cons_self, ih (fun t member => started t (List.mem_cons_of_mem _ member))
      fun t member =>
        commands t (List.mem_cons_of_mem _ member)]

/-- **The wiring is that of the nearest claims.** -/
theorem spawn_wires_nearest_claims (sound : w.Sound)
    (spawned : (spawn item values).exec e w = (.ok handle, e', w')) :
    ∃ events, w'.events = w.events ++ events ∧
      handle.graph.WiredByClaims (handle.graph.values w.nextDescriptor) w handle.processes
        events := by
  obtain ⟨w₁, w₂, σ, events, launching, starts, succeeds⟩ := spawn_ok sound spawned
  obtain ⟨begins, progress, fine, wired, launches, account, -, isHandle, counted⟩ := succeeds
  have sound₁ := sound.passes begins.passes
  have handed := progress.handedOver sound₁ fine
  have processes : handle.processes = starts.filterMap Start.entry? := by
    rw [isHandle]
    exact progress.roster.entries
  have occurrences : handle.graph.occurrences = starts.map fun s => (s.leaf, s.above) :=
    progress.roster.occurrences.symm
  have started : ∀ s ∈ starts, ∃ p, s.result = .ok p := fun s member => by
    obtain ⟨p, result, -⟩ := handed.children s member
    exact ⟨p, result⟩
  have tried := handed.tried
  obtain ⟨n, rfl⟩ := begins.drawn
  refine ⟨events ++ (σ.childDescriptors ++ σ.files).map .closed ++ launching, account.trace,
    { commands := ?_
      spawned := ?_
      known := fun o member s c nearest => Graph.nearest_mem_claims progress.possible member nearest
      once := (Chore.apart_chores _ []).distinct
      made := ?_
      given := fun d c made => (handle.graph.fit_values w.nextDescriptor).of_given made
      fresh := fun c allocated => ?_
      same := ?_ }⟩
  · rw [occurrences, processes]
    exact map_command started tried.commands
  · rw [List.filter_append, tried.shown, launches.starts, List.append_nil, occurrences, processes]
    exact map_event _ started
  · rw [List.filter_append, List.filter_append, filter_isMaking (openedBy_map_closed _),
      filter_isMaking launches.opens, List.append_nil, List.append_nil]
    exact progress.served.shown
  · obtain ⟨m, -, isNumber, large⟩ := progress.value_of_allocated allocated
    exact ⟨m, isNumber, large⟩
  · intro o o' s s' d gets
    obtain ⟨a, isOwn, rfl⟩ := Option.map_eq_some_iff.mp gets
    obtain ⟨nearest, allocated⟩ := Option.filter_eq_some_iff.mp isOwn
    have allocated : a ∈ handle.graph.allocated := of_decide_eq_true allocated
    rw [nearest]
    constructor
    · intro gets'
      obtain ⟨b, isOwn', same⟩ := Option.map_eq_some_iff.mp gets'
      obtain ⟨nearest', allocated'⟩ := Option.filter_eq_some_iff.mp isOwn'
      rw [nearest', progress.injective (of_decide_eq_true allocated') allocated same]
    · intro nearest'
      rw [Graph.openedFor, nearest', ← nearest]
      exact gets

/-- In the small graph, `b` reads what the first `a` writes, and the second `a` reads the errors of
`b`. -/
theorem spawn_small_wires_nearest_claims :
    ∃ handle e' w' events,
      (spawn smallGraph.toItem {}).exec {} (smallWorld ['a', 'b']) = (.ok handle, e', w') ∧
      handle.graph.WiredByClaims (handle.graph.values 10) (smallWorld ['a', 'b']) handle.processes
        events ∧
      events.filter Event.isStart = [
        .spawned 1001 [[.char 'a']] (some (.number 12)) (some (.number 11)) none,
        .spawned 1002 [[.char 'b']] (some (.number 10)) (some (.number 15)) (some (.number 17)),
        .spawned 1003 [[.char 'a']] (some (.number 16)) none none] := by
  have succeeds : ((spawn smallGraph.toItem {}).exec {} (smallWorld ['a', 'b'])).1.isOk = true := by
    decide +kernel
  have starts : ((spawn smallGraph.toItem {}).exec {} (smallWorld ['a', 'b'])).2.2.events.filter
      Event.isStart = [
      .spawned 1001 [[.char 'a']] (some (.number 12)) (some (.number 11)) none,
      .spawned 1002 [[.char 'b']] (some (.number 10)) (some (.number 15)) (some (.number 17)),
      .spawned 1003 [[.char 'a']] (some (.number 16)) none none] := by decide +kernel
  generalize run : (spawn smallGraph.toItem {}).exec {} (smallWorld ['a', 'b']) =
    result at succeeds starts
  obtain ⟨outcome, e', w'⟩ := result
  cases outcome with
  | error failure => cases succeeds
  | ok handle =>
    obtain ⟨events, trace, wired⟩ := spawn_wires_nearest_claims (smallWorld_sound ['a', 'b']) run
    have all : w'.events = events := trace
    exact ⟨handle, e', w', events, rfl, wired, all ▸ starts⟩

end Engine

end Pipework
