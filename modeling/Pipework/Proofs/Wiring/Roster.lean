import Pipework.Proofs.Wiring.Steps

/-!
# The roster of started commands

Every leaf that the walk comes to is tried once, in order, and whether a process was started or not
is written down at once. A `Start` is one such try; the invariant says that the trace, the processes
of the system, and the two lists of the wiring all tell the same starts.
-/

namespace Pipework

/-- Whether an event is that of a start, successful or not. -/
def Event.isStart : Event → Bool
  | spawned .. | spawnFailed .. => true
  | _ => false

theorem filter_isStart_map_closed (ds : List Nat) :
    (ds.map Event.closed).filter Event.isStart = [] := by
  refine List.filter_eq_nil_iff.mpr fun e member => ?_
  obtain ⟨d, _, rfl⟩ := List.mem_map.mp member
  simp [Event.isStart]

theorem filter_isStart_of_control {events : List Event} (control : ∀ e ∈ events, e.isControl) :
    events.filter Event.isStart = [] := by
  refine List.filter_eq_nil_iff.mpr fun e member => ?_
  have isControl := control e member
  cases e <;> simp_all [Event.isStart, Event.isControl]

theorem startedBy_eq (events : List Event) :
    startedBy events = (events.filter Event.isStart).filterMap Event.started? := by
  rw [startedBy, List.filterMap_filter]
  congr 1
  funext e
  cases e <;> rfl

/-- The leaf that a chore starts, and the nodes above it. -/
def Chore.leaf? : Chore → Option (Graph × Lineage)
  | start leaf above => some (leaf, above)
  | _ => none

/-- The leaves of a graph with the nodes above them, in the order in which they are started. A leaf
that stands in two places comes up twice. -/
def Graph.occurrences (g : Graph) : List (Graph × Lineage) := (g.chores []).filterMap Chore.leaf?

/-- One try to start the command of a leaf. -/
structure Start where
  leaf : Graph
  above : Lineage
  command : Command
  /-- The process, or why there is none. -/
  result : Except SystemError Process

namespace Start

/-- The process that was started. -/
def process? (s : Start) : Option Process :=
  match s.result with
  | .ok p => some p
  | .error _ => none

/-- What the wiring keeps of a process that was started. -/
def entry? (s : Start) : Option (Command × Nat) := s.process?.map fun p => (s.command, p.pid)

/-- What the wiring keeps of a failed start. -/
def failure? (s : Start) : Option SpawnFailure :=
  match s.result with
  | .ok _ => none
  | .error e => some ⟨.command s.command, SpawnReason.ofError e, e⟩

/-- The streams that a command is started with. -/
def context (value : Claim → Descriptor) (s : Start) : Context :=
  Chore.contextOf value (s.leaf.nearest s.above)

/-- The event of a start. -/
def event (value : Claim → Descriptor) (s : Start) : Event :=
  match s.result with
  | .ok p => Chore.spawnedEvent s.command (s.context value) p
  | .error e => .spawnFailed s.command.args e.symbol

end Start

/-- The try that a chore makes in a state, if it starts a command. -/
def Chore.tries (value : Claim → Descriptor) (σ : Wiring) (w : World) : Chore → List Start
  | start leaf above =>
    match leaf.commandOf with
    | .ok command => [⟨leaf, above, command,
        Sim.prepare w (σ.requestOf command (contextOf value (leaf.nearest above)))⟩]
    | .error _ => []
  | _ => []

/-- A process stays on its channels as long as descriptors are only added. -/
theorem World.Started.mono {w w' : World} {r : Sim.StartRequest} {p : Process}
    (started : w.Started r p) {more : List (Nat × Channel)}
    (descriptors : w'.descriptors = w.descriptors ++ more) : w'.Started r p := by
  have keeps {inherited c : Channel} {d : Option Descriptor}
      (channel : Sim.childChannel? w inherited d = some c) :
      Sim.childChannel? w' inherited d = some c := by
    cases d with
    | none => exact channel
    | some d =>
      by_cases null : d.toInt = Target.nullNumber
      · simpa [Sim.childChannel?, null] using channel
      · simp only [Sim.childChannel?, null, if_false, World.channel?] at channel ⊢
        obtain ⟨x, found, same⟩ := Option.map_eq_some_iff.mp channel
        rw [descriptors, List.find?_append, found]
        exact congrArg some same
  exact ⟨keeps started.stdin, keeps started.stdout, keeps started.stderr, started.args,
    started.hasRun, started.exit, started.seen⟩

namespace Wiring

/-- What is true of the started commands when some chores have been done. -/
structure Roster (value : Claim → Descriptor) (settings : StartSettings) (w₀ w : World)
    (done : List Chore) (σ : Wiring) (events : List Event) (starts : List Start) : Prop where
  settings : σ.settings = settings
  occurrences : starts.map (fun s => (s.leaf, s.above)) = done.filterMap Chore.leaf?
  commands : ∀ s ∈ starts, s.leaf.commandOf = .ok s.command
  shown : events.filter Event.isStart = starts.map (Start.event value)
  processes : w.processes = w₀.processes ++ starts.filterMap Start.process?
  entries : σ.processes = starts.filterMap Start.entry?
  failures : σ.failures = starts.filterMap Start.failure?
  pids : (starts.filterMap Start.process?).map (·.pid)
    = List.range' (1001 + w₀.processes.length) (starts.filterMap Start.process?).length
  streams : ∀ s ∈ starts, ∀ p, s.result = .ok p →
      w.Started (σ.requestOf s.command (s.context value)) p

namespace Roster

variable {value : Claim → Descriptor} {settings : StartSettings} {w₀ w w' : World}
    {done : List Chore}
variable {σ σ' : Wiring} {events more : List Event} {starts : List Start}

theorem empty (value : Claim → Descriptor) (settings : StartSettings) (w : World) :
    Roster value settings w w [] { settings } [] [] where
  settings := rfl
  occurrences := rfl
  commands := by simp
  shown := rfl
  processes := by simp
  entries := rfl
  failures := rfl
  pids := rfl
  streams := by simp

private theorem filterMap_snoc {α β : Type} (f : α → Option β) (l : List α) (x : α) :
    (l ++ [x]).filterMap f = l.filterMap f ++ (f x).toList := by
  cases h : f x <;> simp [h]

private theorem requestOf_congr (same : σ'.settings = σ.settings) (command : Command)
    (c : Context) :
    σ'.requestOf command c = σ.requestOf command c := by
  rw [requestOf, requestOf, same]

/-- A step that starts nothing. -/
private theorem pass (roster : Roster value settings w₀ w done σ events starts) {done' : List Chore}
    (chores : done'.filterMap Chore.leaf? = done.filterMap Chore.leaf?)
    (same : σ'.settings = σ.settings)
    (entries : σ'.processes = σ.processes) (failures : σ'.failures = σ.failures)
    (shown : more.filter Event.isStart = []) (processes : w'.processes = w.processes)
    {extra : List (Nat × Channel)} (descriptors : w'.descriptors = w.descriptors ++ extra) :
    Roster value settings w₀ w' done' σ' (events ++ more) starts where
  settings := same.trans roster.settings
  occurrences := roster.occurrences.trans chores.symm
  commands := roster.commands
  shown := by rw [List.filter_append, shown, List.append_nil, roster.shown]
  processes := processes.trans roster.processes
  entries := entries.trans roster.entries
  failures := failures.trans roster.failures
  pids := roster.pids
  streams s member p started := by
    rw [requestOf_congr same]
    exact (roster.streams s member p started).mono descriptors

/-- A step that tries to start a command. -/
private theorem tried (roster : Roster value settings w₀ w done σ events starts) (s : Start)
    (isLeaf : s.leaf.commandOf = .ok s.command) (same : σ'.settings = σ.settings)
    (entries : σ'.processes = σ.processes ++ s.entry?.toList)
    (failures : σ'.failures = σ.failures ++ s.failure?.toList)
    (processes : w'.processes = w.processes ++ s.process?.toList)
    (descriptors : w'.descriptors = w.descriptors)
    (started : ∀ p, s.result = .ok p → p.pid = 1001 + w.processes.length ∧
      w.Started (σ.requestOf s.command (s.context value)) p) :
    Roster value settings w₀ w' (done ++ [.start s.leaf s.above]) σ' (events ++ [s.event value])
      (starts ++ [s]) where
  settings := same.trans roster.settings
  occurrences := by simp [roster.occurrences, Chore.leaf?]
  commands t member := by
    rcases List.mem_append.mp member with old | new
    · exact roster.commands t old
    · rw [List.mem_singleton.mp new]
      exact isLeaf
  shown := by
    have isStart : (s.event value).isStart = true := by
      unfold Start.event
      split <;> rfl
    rw [List.filter_append, roster.shown, List.map_append]
    simp [isStart]
  processes := by rw [processes, roster.processes, filterMap_snoc, List.append_assoc]
  entries := by rw [entries, roster.entries, filterMap_snoc]
  failures := by rw [failures, roster.failures, filterMap_snoc]
  pids := by
    rw [filterMap_snoc]
    cases found : s.process? with
    | none => simpa using roster.pids
    | some p =>
      have result : s.result = .ok p := by
        unfold Start.process? at found
        split at found <;> cases found
        assumption
      have count : w.processes.length = w₀.processes.length +
          (starts.filterMap Start.process?).length := by
        rw [roster.processes, List.length_append]
      rw [Option.toList_some, List.map_append, roster.pids, List.length_append,
        List.length_singleton, List.range'_concat]
      simp only [List.map_cons, List.map_nil, (started p result).1, count, Nat.one_mul,
        Nat.add_assoc]
  streams t member p isStarted := by
    rw [requestOf_congr same]
    have unchanged : w'.descriptors = w.descriptors ++ [] := by rw [descriptors, List.append_nil]
    rcases List.mem_append.mp member with old | new
    · exact (roster.streams t old p isStarted).mono unchanged
    · rw [List.mem_singleton.mp new] at isStarted ⊢
      exact (started p isStarted).2.mono unchanged

/-- A chore that makes a pipe. -/
private theorem piped (roster : Roster value settings w₀ w done σ events starts) {c : Chore}
    (noLeaf : c.leaf? = none) (same : σ'.settings = σ.settings)
    (entries : σ'.processes = σ.processes)
    (failures : σ'.failures = σ.failures) :
    Roster value settings w₀ w.addPipe (done ++ [c]) σ'
      (events ++ [.pipe w.nextDescriptor (w.nextDescriptor + 1)]) starts :=
  roster.pass (by rw [filterMap_snoc, noLeaf, Option.toList_none, List.append_nil]) same entries
    failures rfl rfl rfl

/-- A chore that starts nothing. -/
private theorem untried {c : Chore} (noLeaf : c.leaf? = none)
    (roster : Roster value settings w₀ w' (done ++ [c]) σ' (events ++ more) starts) :
    Roster value settings w₀ w' (done ++ [c]) σ' (events ++ more) (starts ++ c.tries value σ w) := by
  have none : c.tries value σ w = [] := by cases c <;> first | rfl | cases noLeaf
  rw [none, List.append_nil]
  exact roster

theorem step {c : Chore} (roster : Roster value settings w₀ w done σ events starts)
    (effect : c.Effect value σ w (.ok ()) more σ' w') :
    Roster value settings w₀ w' (done ++ [c]) σ' (events ++ more) (starts ++ c.tries value σ w) := by
  cases effect with
  | buffer place s held => exact untried rfl (roster.piped rfl rfl rfl rfl)
  | endpoint place s => exact untried rfl (roster.piped rfl rfl rfl rfl)
  | graph place s g => exact untried rfl (roster.piped rfl rfl rfl rfl)
  | edge place => exact untried rfl (roster.piped rfl rfl rfl rfl)
  | file place s label name append line fine =>
    have ready := World.passes_readyFile w name (fileMode s append)
    refine untried rfl (roster.pass ?_ rfl rfl rfl rfl ?_ (congrArg (· ++ _) ready.descriptors))
    · simp [Chore.leaf?]
    · exact (World.same_readyFile w name (fileMode s append)).1
  | given place s held d given =>
    exact untried rfl
      (roster.pass (by simp [Chore.leaf?]) rfl rfl rfl rfl rfl (List.append_nil _).symm)
  | started leaf above command p line isLeaf prepared =>
    have tries : (Chore.start leaf above).tries value σ w = [⟨leaf, above, command, .ok p⟩] := by
      simp only [Chore.tries, isLeaf, prepared]
    rw [tries]
    refine roster.tried ⟨leaf, above, command, .ok p⟩ isLeaf rfl rfl (List.append_nil _).symm
      rfl rfl ?_
    intro q same
    cases same
    exact Sim.prepare_ok prepared
  | notStarted leaf above command e line isLeaf refused =>
    have tries : (Chore.start leaf above).tries value σ w = [⟨leaf, above, command, .error e⟩] := by
      simp only [Chore.tries, isLeaf, refused]
    rw [tries]
    refine roster.tried ⟨leaf, above, command, .error e⟩ isLeaf rfl (List.append_nil _).symm rfl
      (List.append_nil _).symm rfl ?_
    intro q same
    cases same

theorem stop {c : Chore} {e : Failure} (roster : Roster value settings w₀ w done σ events starts)
    (effect : c.Effect value σ w (.error e) more σ' w') :
    Roster value settings w₀ w' done σ' (events ++ more) starts := by
  cases effect with
  | fileRefused place s label name append e refused =>
    exact roster.pass rfl rfl rfl rfl rfl rfl (List.append_nil _).symm
  | stuck c e => exact roster.pass rfl rfl rfl rfl rfl rfl (List.append_nil _).symm

/-- The processes that the events of a walk start are those that the wiring knows. -/
theorem started (roster : Roster value settings w₀ w done σ events starts) :
    startedBy events = σ.processes.map (·.2) := by
  rw [startedBy_eq, roster.shown, roster.entries, List.filterMap_map, List.map_filterMap]
  congr 1
  funext s
  simp only [Function.comp_apply, Start.event, Start.entry?, Start.process?]
  cases s.result <;> rfl

end Roster

end Wiring

end Pipework
