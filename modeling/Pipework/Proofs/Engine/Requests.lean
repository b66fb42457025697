import Pipework.Proofs.Engine.Ownership
import Pipework.Proofs.Engine.Takers

/-!
# The ends that a graph asks for

The caller gets an end of a stream exactly if one node of the graph asks for it: where two do, the check
before the walk fails, and nothing has been opened or started by then. The end is one side of a pipe, and
`Graph.Answered` says who has the other side: the streams that the request decides, and those that were
given the number of that side by hand. Nobody else has it, for the start has closed its own.
-/

namespace Pipework

/-- What a stream of a process is on. -/
def Process.channel (p : Process) : Stream → Channel
  | .stdin => p.stdin
  | .stdout => p.stdout
  | .stderr => p.stderr

theorem Process.channel_mem (p : Process) (s : Stream) : p.channel s ∈ [p.stdin, p.stdout, p.stderr] := by
  cases s <;> simp [channel]

theorem Process.channel_of_still {p q : Process} (same : p.still = q.still) (s : Stream) :
    p.channel s = q.channel s := by
  have streams := Process.streams_of_still same
  simp only [List.cons.injEq, and_true] at streams
  cases s <;> simp [channel, streams]

/-- The event of a pipe of which a redirected node has one side, and the start keeps the other. -/
def Event.pipeOf (s : Stream) (near far : Nat) : Event := if s = .stdin then .pipe near far else .pipe far near

namespace Graph

/-- A request for an end of a stream is answered: the descriptor `far` is one side of a new pipe, and the other
side, which had the number `near`, is left to the commands that it is for. -/
structure Answered (g : Graph) (w : World) (processes : List (Command × Nat)) (events : List Event)
    (s : Stream) (place : Place) (near far pipe : Nat) : Prop where
  request : (place, s) ∈ g.endpoints
  made : .pipeOf s near far ∈ events
  leads : w.channel? far = some (farChannel s pipe)
  count : processes.length = g.occurrences.length
  /-- A stream of a command is on the other side exactly if the request is its nearest claim, or a redirect to
  a descriptor that names the other side by its number. -/
  commands : ∀ o pid, (o, pid) ∈ g.occurrences.zip (processes.map (·.2)) → ∃ p, w.process? pid = some p ∧
    ∀ t, p.channel t = nearChannel s pipe ↔ o.1.nearest o.2 t = some (.near place s) ∨ g.Numbers o t near
  /-- No other process is on it. -/
  others : ∀ p ∈ w.processes, p.pid ∉ processes.map (·.2) → ∀ t, p.channel t ≠ nearChannel s pipe
  /-- It is open under no number. -/
  closed : ∀ x ∈ w.descriptors, x.2 ≠ nearChannel s pipe

end Graph

namespace Engine

open Pipework.Graph World

variable {item : Item} {values : RedirectValues} {e e' : Engine} {w w' w₁ w₂ : World} {g : Graph}
variable {handle : Handle} {σ : Wiring} {events launching : List Event} {starts : List Start}

/-! ## Which processes run which leaves -/

private theorem start_of_zip (started : ∀ s ∈ starts, ∃ p, s.result = .ok p) {o : Graph × Lineage}
    {pid : Nat} (member : (o, pid) ∈ (starts.map fun s => (s.leaf, s.above)).zip
      ((starts.filterMap Start.entry?).map (·.2))) :
    ∃ s ∈ starts, ∃ p, s.result = .ok p ∧ o = (s.leaf, s.above) ∧ pid = p.pid := by
  induction starts with
  | nil => cases member
  | cons s rest ih =>
    obtain ⟨p, result⟩ := started s List.mem_cons_self
    have entry : s.entry? = some (s.command, p.pid) := by
      rw [Start.entry?, Start.process?, result]
      rfl
    rw [List.filterMap_cons_some entry, List.map_cons, List.map_cons, List.zip_cons_cons] at member
    rcases List.mem_cons.mp member with same | later
    · cases same
      exact ⟨s, List.mem_cons_self, p, result, rfl, rfl⟩
    · obtain ⟨s', known, found⟩ := ih (fun t inRest => started t (List.mem_cons_of_mem _ inRest)) later
      exact ⟨s', List.mem_cons_of_mem _ known, found⟩

private theorem process?_of_still {v : World}
    (still : v.processes.map Process.still = w.processes.map Process.still) {pid : Nat} {p : Process}
    (found : w.process? pid = some p) :
    ∃ q, v.process? pid = some q ∧ q.still = p.still := by
  have look (u : World) : (u.process? pid).map Process.still =
      (u.processes.map Process.still).find? (·.pid == pid) := by
    rw [process?, List.find?_map]
    rfl
  have same : (v.process? pid).map Process.still = (w.process? pid).map Process.still := by
    rw [look, look, still]
  rw [found, Option.map_some] at same
  exact Option.map_eq_some_iff.mp same

/-! ## What became of a request -/

namespace Succeeds

variable (succeeds : Succeeds item values e w handle e' w' w₁ w₂ σ events launching starts)
include succeeds

private theorem results (sound : w.Sound) : ∀ s ∈ starts, ∃ p, s.result = .ok p := fun s member => by
  have handed := succeeds.progress.handedOver (sound.passes succeeds.begins.passes) succeeds.fine
  obtain ⟨p, result, -⟩ := handed.children s member
  exact ⟨p, result⟩

private theorem processes_eq : handle.processes = starts.filterMap Start.entry? := by
  rw [succeeds.handle]
  exact succeeds.progress.roster.entries

/-- A process that was there before the start has a number that is not the handle's. -/
private theorem pid_mem_or_old {p : Process} (member : p ∈ w'.processes) :
    (∃ q ∈ w₁.processes, q.still = p.still) ∨ p.pid ∈ handle.processes.map (·.2) := by
  have known : p.still ∈ w₂.processes.map Process.still := succeeds.still ▸ List.mem_map_of_mem member
  obtain ⟨q, isProcess, same⟩ := List.mem_map.mp known
  rw [succeeds.progress.roster.processes] at isProcess
  rcases List.mem_append.mp isProcess with old | new
  · exact .inl ⟨q, old, same⟩
  · obtain ⟨s, started, isResult⟩ := List.mem_filterMap.mp new
    right
    rw [succeeds.processes_eq, ← Process.pid_of_still same]
    refine List.mem_map.mpr ⟨(s.command, q.pid), List.mem_filterMap.mpr ⟨s, started, ?_⟩, rfl⟩
    rw [Start.entry?, isResult]
    rfl

/-- The near end of a pipe has been closed by the start, and it was not open before. -/
private theorem near_closed (sound : w.Sound) {place : Place} {s : Stream} {pipe : Nat}
    (leads : (.near place s, nearChannel s pipe) ∈ handle.graph.channels w₁) :
    ∀ x ∈ w'.descriptors, x.2 ≠ nearChannel s pipe := by
  have sound₁ := sound.passes succeeds.begins.passes
  intro x isOpen same
  rcases (succeeds.mem_descriptors x).mp isOpen with old | ⟨⟨c, known, rfl⟩, unclosed⟩
  · have isOld := sound₁.ends x (List.mem_append_left _ old) pipe (same ▸ pipe?_nearChannel s pipe)
    have isNew := Making.channels_range leads pipe (pipe?_nearChannel s pipe)
    omega
  · cases eq_of_nodup_map (Making.nodup_channels _ _ _) known leads same
    have allocated : .near place s ∈ handle.graph.allocated := by
      rw [← handle.graph.map_fst_channels w₁]
      exact List.mem_map_of_mem leads
    obtain ⟨n, isOpened, isNumber, -⟩ := succeeds.progress.value_of_allocated allocated
    rw [closedBy_append, List.mem_append, not_or] at unclosed
    have left : (handle.graph.values w₁.nextDescriptor (.near place s)).toNat ∈
        leftOpenBy (events ++ (σ.childDescriptors ++ σ.files).map .closed) := by
      refine List.mem_filter.mpr ⟨?_, decide_eq_true unclosed.1⟩
      rw [openedBy_append, isNumber, Descriptor.toNat_number]
      exact List.mem_append_left _ isOpened
    obtain ⟨c, kept, number⟩ := List.mem_map.mp ((succeeds.progress.kept_perm sound₁).mem_iff.mpr left)
    have isNear := succeeds.progress.toNat_injective (handle.graph.kept_subset c kept) allocated number
    obtain ⟨_, _, _, isFar, -⟩ := kept_cases kept
    cases isNear.symm.trans isFar

/-- What the streams of a command of the graph are on. -/
private theorem channel_iff (sound : w.Sound) {place : Place} {s : Stream} {pipe : Nat}
    (leads : (.near place s, nearChannel s pipe) ∈ handle.graph.channels w₁) {start : Start}
    (member : start ∈ starts) {p : Process} (result : start.result = .ok p) (t : Stream) :
    p.channel t = nearChannel s pipe ↔ start.leaf.nearest start.above t = some (.near place s) ∨
      handle.graph.Numbers (start.leaf, start.above) t
        (handle.graph.values w₁.nextDescriptor (.near place s)).toInt := by
  have streams := succeeds.progress.roster.streams start member p result
  have occurs : (start.leaf, start.above) ∈ handle.graph.occurrences := by
    rw [Graph.occurrences, ← succeeds.progress.roster.occurrences]
    exact List.mem_map_of_mem member
  have onChannel : ∃ inherited : Channel, inherited.pipe? = none ∧ Sim.childChannel? w₂ inherited
      ((start.leaf.nearest start.above t).map (handle.graph.values w₁.nextDescriptor)) = some (p.channel t) := by
    cases t with
    | stdin => exact ⟨.hostInput, rfl, streams.stdin⟩
    | stdout => exact ⟨.hostOutput, rfl, streams.stdout⟩
    | stderr => exact ⟨.hostError, rfl, streams.stderr⟩
  obtain ⟨inherited, standard, onChannel⟩ := onChannel
  exact succeeds.progress.stream_iff_of_number (sound.passes succeeds.begins.passes) occurs standard onChannel
    leads (pipe?_nearChannel s pipe)

/-- The pipe of what is kept shows. -/
private theorem pipeOf_mem (sound : w.Sound) {place : Place} {s : Stream}
    (kept : .far place s ∈ handle.graph.kept) :
    .pipeOf s (handle.graph.values w₁.nextDescriptor (.near place s)).toNat
      (handle.graph.values w₁.nextDescriptor (.far place s)).toNat ∈
        events ++ (σ.childDescriptors ++ σ.files).map .closed ++ launching := by
  obtain ⟨_, sameNumber⟩ := succeeds.begins.drawn
  have next : w₁.nextDescriptor = w.nextDescriptor := by rw [sameNumber]
  obtain ⟨_, _, _, ⟨⟩, known, -, made⟩ := kept_cases kept
  have isMaking : .ofRedirect place s ∈ Chore.makings (handle.graph.chores []) :=
    List.mem_filterMap.mpr ⟨_, known, made⟩
  rw [next]
  unfold Event.pipeOf
  unfold Making.ofRedirect at isMaking
  split at isMaking
  · next isStdin =>
    rw [if_pos isStdin]
    exact (succeeds.shows sound).pipe_mem isMaking
  · next isOutput =>
    rw [if_neg isOutput]
    exact (succeeds.shows sound).pipe_mem isMaking

/-- Each end that the caller has is one side of the pipe that was made for its request. -/
theorem answered (sound : w.Sound) {s : Stream} {d : Nat} (isEnd : handle.endOf s = some d) :
    ∃ place near pipe, handle.graph.Answered w' handle.processes
      (events ++ (σ.childDescriptors ++ σ.files).map .closed ++ launching) s place near d pipe := by
  have sound₁ := sound.passes succeeds.begins.passes
  have results := succeeds.results sound
  have occurrences := (succeeds.shows sound).occurrences
  have ends : σ.endOf s = some d := by
    rw [← isEnd, succeeds.handle]
    cases s <;> rfl
  obtain ⟨place, isEndpoint, rfl⟩ :=
    (Wiring.endOf_iff succeeds.progress.served (nodup_endpoints succeeds.begins.checked) s d).mp ends
  have kept : .far place s ∈ handle.graph.kept := List.mem_append_right _ (List.mem_map.mpr ⟨_, isEndpoint, rfl⟩)
  obtain ⟨pipe, near, far⟩ := channels_of_kept kept w₁
  have allocated : .near place s ∈ handle.graph.allocated := by
    rw [← handle.graph.map_fst_channels w₁]
    exact List.mem_map_of_mem near
  obtain ⟨n, -, isNumber, -⟩ := succeeds.progress.value_of_allocated allocated
  have made := succeeds.pipeOf_mem sound kept
  rw [isNumber, Descriptor.toNat_number] at made
  refine ⟨place, n, pipe,
    { request := isEndpoint
      made := made
      leads := succeeds.channel?_of_kept sound kept (fun _ held => not_buffer_of_endpoint isEndpoint) far
      count := ?_
      commands := fun o pid member => ?_
      others := fun p member foreign t same => ?_
      closed := succeeds.near_closed sound near }⟩
  · rw [succeeds.processes_eq, ← occurrences, List.length_map, List.filterMap_length_eq_length]
    intro start member
    obtain ⟨p, result⟩ := results start member
    rw [Start.entry?, Start.process?, result]
    rfl
  · rw [succeeds.processes_eq, ← occurrences] at member
    obtain ⟨start, started, p, result, rfl, rfl⟩ := start_of_zip results member
    obtain ⟨q, there, same⟩ :=
      process?_of_still succeeds.still (succeeds.progress.roster.process? sound₁ started result)
    refine ⟨q, there, fun t => ?_⟩
    rw [Process.channel_of_still same, succeeds.channel_iff sound near started result, isNumber]
    rfl
  · rcases succeeds.pid_mem_or_old member with ⟨q, old, isStill⟩ | own
    · have isOld := sound₁.streams q old _ (q.channel_mem t) pipe
        (by rw [Process.channel_of_still isStill, same, pipe?_nearChannel])
      have isNew := Making.channels_range near pipe (pipe?_nearChannel s pipe)
      omega
    · exact foreign own

end Succeeds

/-! ## Starts -/

end Engine

end Pipework
