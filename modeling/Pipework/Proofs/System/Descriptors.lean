import Pipework.Proofs.System.Passing

/-!
# Descriptors and processes that are started

What the calls do that open and close descriptors, each as one equation: a new pipe takes the next
two numbers, an opened file takes the next one, and closing an open descriptor retires it. A system
is `Sound` if no number in use could be handed out again. New systems are sound, and nothing that
the library does ends it.

A start that succeeds adds one process, under the next number, on the channels of the descriptors
that it was given; a start that the system refuses leaves only an event.
-/

namespace Pipework

/-- The pipe that a channel is an end of. -/
def Channel.pipe? : Channel → Option Nat
  | readEnd pipe => some pipe
  | writeEnd pipe => some pipe
  | _ => none

namespace World

/-- The system with a new pipe. -/
def addPipe (w : World) : World :=
  World.emit { w with
    pipes := w.pipes ++ [[]]
    nextDescriptor := w.nextDescriptor + 2
    descriptors := w.descriptors
      ++ [(w.nextDescriptor, .readEnd w.pipes.length),
        (w.nextDescriptor + 1, .writeEnd w.pipes.length)] }
    (.pipe w.nextDescriptor (w.nextDescriptor + 1))

/-- The system with a file opened, when the file itself is ready. -/
def addOpening (w : World) (path : Text) (mode : FileMode) : World :=
  World.emit { w with
    openings := w.openings ++ [⟨path, mode, 0⟩]
    nextDescriptor := w.nextDescriptor + 1
    descriptors := w.descriptors ++ [(w.nextDescriptor, .file w.openings.length)] }
    (.opened path mode w.nextDescriptor)

/-- The system with a file emptied or made for an opening. -/
def readyFile (w : World) (path : Text) : FileMode → World
  | .read => w
  | .write => w.putFile path []
  | .append => w.putFile path ((w.file? path).getD [])

theorem passes_readyFile (w : World) (path : Text) (mode : FileMode) :
    w.Passes (w.readyFile path mode) [] := by
  cases mode with
  | read => exact .refl w
  | write => exact passes_putFile w path []
  | append => exact passes_putFile w path _

theorem same_readyFile (w : World) (path : Text) (mode : FileMode) :
    (w.readyFile path mode).processes = w.processes ∧ (w.readyFile path mode).pipes = w.pipes := by
  have put (b : Bytes) : (w.putFile path b).processes = w.processes ∧ (w.putFile path b).pipes = w.pipes := by
    unfold putFile
    split <;> exact ⟨rfl, rfl⟩
  cases mode with
  | read => exact ⟨rfl, rfl⟩
  | write => exact put []
  | append => exact put _

/-- The system with a descriptor given up. -/
def shut (w : World) (descriptor : Nat) : World :=
  World.emit { w with
    descriptors := w.descriptors.filter (·.1 != descriptor)
    retired := w.descriptors.filter (·.1 == descriptor) ++ w.retired }
    (.closed descriptor)

/-- What holds of every system: the next number of a descriptor, of a process and of a pipe is
new. -/
structure Sound (w : World) : Prop where
  descriptors : ∀ d ∈ w.descriptors ++ w.retired, d.1 < w.nextDescriptor
  ends : ∀ d ∈ w.descriptors ++ w.retired, ∀ pipe, d.2.pipe? = some pipe → pipe < w.pipes.length
  pids : ∀ p ∈ w.processes, p.pid < 1001 + w.processes.length
  streams : ∀ p ∈ w.processes, ∀ c ∈ [p.stdin, p.stdout, p.stderr], ∀ pipe,
    c.pipe? = some pipe → pipe < w.pipes.length

namespace Sound

variable {w w' : World} {events : List Event}

/-- A system in which nothing has been started or opened yet. -/
theorem ofNew (descriptors : w.descriptors = [(0, .hostInput), (1, .hostOutput), (2, .hostError)])
    (retired : w.retired = []) (next : 3 ≤ w.nextDescriptor) (processes : w.processes = []) :
    w.Sound where
  descriptors d member := by
    simp only [descriptors, retired, List.append_nil, List.mem_cons, List.not_mem_nil,
      or_false] at member
    rcases member with rfl | rfl | rfl <;> simp only <;> omega
  ends d member pipe isEnd := by
    simp only [descriptors, retired, List.append_nil, List.mem_cons, List.not_mem_nil,
      or_false] at member
    rcases member with rfl | rfl | rfl <;> cases isEnd
  pids := by simp [processes]
  streams := by simp [processes]

theorem passes (sound : w.Sound) (passes : w.Passes w' events) : w'.Sound where
  descriptors := by
    rw [passes.descriptors, passes.retired, passes.nextDescriptor]
    exact sound.descriptors
  ends := by
    rw [passes.descriptors, passes.retired, passes.pipes]
    exact sound.ends
  pids p member := by
    have count : w'.processes.length = w.processes.length := by
      simpa using congrArg List.length passes.still
    have still : p.still ∈ w.processes.map Process.still :=
      passes.still ▸ List.mem_map_of_mem member
    obtain ⟨q, member, same⟩ := List.mem_map.mp still
    rw [count, ← Process.pid_of_still same]
    exact sound.pids q member
  streams p member := by
    have still : p.still ∈ w.processes.map Process.still :=
      passes.still ▸ List.mem_map_of_mem member
    obtain ⟨q, member, same⟩ := List.mem_map.mp still
    rw [← Process.streams_of_still same, passes.pipes]
    exact sound.streams q member

theorem addPipe (sound : w.Sound) : w.addPipe.Sound where
  descriptors d member := by
    change d.1 < w.nextDescriptor + 2
    simp only [World.addPipe, emit, List.append_assoc, List.mem_append, List.mem_cons,
      List.not_mem_nil, or_false] at member
    rcases member with old | (rfl | rfl) | old
    · have := sound.descriptors d (List.mem_append_left _ old)
      omega
    · simp only
      omega
    · simp only
      omega
    · have := sound.descriptors d (List.mem_append_right _ old)
      omega
  ends d member pipe isEnd := by
    simp only [World.addPipe, emit, List.append_assoc, List.mem_append, List.mem_cons,
      List.not_mem_nil, or_false, List.length_append, List.length_singleton] at member ⊢
    rcases member with old | (rfl | rfl) | old
    · have := sound.ends d (List.mem_append_left _ old) pipe isEnd
      omega
    · cases isEnd
      omega
    · cases isEnd
      omega
    · have := sound.ends d (List.mem_append_right _ old) pipe isEnd
      omega
  pids := sound.pids
  streams p member c isStream pipe isEnd := by
    have := sound.streams p member c isStream pipe isEnd
    simp only [World.addPipe, emit, List.length_append, List.length_singleton]
    omega

theorem addOpening (sound : w.Sound) (path : Text) (mode : FileMode) :
    (w.addOpening path mode).Sound where
  descriptors d member := by
    change d.1 < w.nextDescriptor + 1
    simp only [World.addOpening, emit, List.append_assoc, List.mem_append,
      List.mem_singleton] at member
    rcases member with old | rfl | old
    · have := sound.descriptors d (List.mem_append_left _ old)
      omega
    · simp only
      omega
    · have := sound.descriptors d (List.mem_append_right _ old)
      omega
  ends d member pipe isEnd := by
    simp only [World.addOpening, emit, List.append_assoc, List.mem_append,
      List.mem_singleton] at member
    rcases member with old | rfl | old
    · exact sound.ends d (List.mem_append_left _ old) pipe isEnd
    · cases isEnd
    · exact sound.ends d (List.mem_append_right _ old) pipe isEnd
  pids := sound.pids
  streams := sound.streams

theorem shut (sound : w.Sound) (descriptor : Nat) : (w.shut descriptor).Sound := by
  have known : ∀ d, d ∈ (w.shut descriptor).descriptors ++ (w.shut descriptor).retired →
      d ∈ w.descriptors ++ w.retired := by
    intro d member
    simp only [World.shut, emit, List.mem_append, List.mem_filter] at member ⊢
    rcases member with ⟨isOpen, _⟩ | ⟨isOpen, _⟩ | retired
    · exact .inl isOpen
    · exact .inl isOpen
    · exact .inr retired
  exact ⟨fun d member => sound.descriptors d (known d member), fun d member =>
    sound.ends d (known d member), sound.pids, sound.streams⟩

theorem emitted (sound : w.Sound) (e : Event) : (w.emit e).Sound :=
  ⟨sound.descriptors, sound.ends, sound.pids, sound.streams⟩

end Sound

/-- What leads to a channel is a descriptor in use. -/
theorem mem_of_channel? {w : World} {d : Nat} {c : Channel} (leads : w.channel? d = some c) :
    d ∈ w.descriptors.map (·.1) := by
  obtain ⟨x, found, -⟩ := Option.map_eq_some_iff.mp leads
  have same : x.1 = d := Int.ofNat_inj.mp (by simpa using List.find?_some found)
  exact List.mem_map.mpr ⟨x, List.mem_of_find?_eq_some found, same⟩

end World

namespace Sim

open World

@[simp] theorem exec_pipe (w : World) :
    pipe.exec w = (.ok (w.nextDescriptor, w.nextDescriptor + 1), w.addPipe) := by
  simp only [pipe, allocate, exec_bind, exec_get, exec_modify, exec_modifyGet, exec_emit, exec_pure]
  simp [addPipe, List.append_assoc]

/-- A file that can be opened. -/
theorem exec_openFile {w : World} {path : Text} {mode : FileMode}
    (fine : openError? w path mode = none) :
    (openFile path mode).exec w = (.ok w.nextDescriptor,
      (w.readyFile path mode).addOpening path mode) := by
  have next := (passes_readyFile w path mode).nextDescriptor
  have openings := (passes_readyFile w path mode).openings
  rw [addOpening, next, openings]
  cases mode <;>
    simp only [openFile, allocate, exec_bind, exec_get, fine, exec_modify, exec_modifyGet,
      exec_emit, exec_pure, readyFile] at next ⊢ <;>
    rw [next]

/-- A file that cannot be opened. -/
theorem exec_openFile_of_error {w : World} {path : Text} {mode : FileMode} {e : SystemError}
    (refused : openError? w path mode = some e) :
    (openFile path mode).exec w = (.error (.system e),
      w.emit (.openFailed path mode e.symbol)) := by
  simp only [openFile, fail, exec_bind, exec_get, refused, exec_emit, exec_throw]

/-- Giving up a descriptor that is open. -/
theorem exec_close {w : World} {d : Nat} (isOpen : d ∈ w.descriptors.map (·.1)) :
    (close d).exec w = (.ok (), w.shut d) := by
  have found : w.descriptors.any (·.1 == d) = true := by
    obtain ⟨x, member, rfl⟩ := List.mem_map.mp isOpen
    exact List.any_eq_true.mpr ⟨x, member, by simp⟩
  simp only [close, exec_bind, exec_get, found, if_true, exec_modify, exec_emit]
  rfl

/-- A descriptor that is not in use cannot be given up. -/
theorem exec_close_of_not_open {w : World} {d : Nat} (gone : d ∉ w.descriptors.map (·.1)) :
    (close d).exec w = (.error (.system .badDescriptor), w) := by
  have none : w.descriptors.any (·.1 == d) = false := by
    refine List.any_eq_false.mpr fun x member same => gone ?_
    exact List.mem_map.mpr ⟨x, member, by simpa using same⟩
  simp only [close, exec_bind, exec_get, none, Bool.false_eq_true, if_false]
  rfl

end Sim

/-! ## Starting processes -/

namespace World

/-- The system with a process started. -/
def addProcess (w : World) (p : Process) (r : Sim.StartRequest) : World :=
  World.emit { w with processes := w.processes ++ [p] }
    (.spawned p.pid r.args r.stdin r.stdout r.stderr)

/-- A process that has been started with a request and has done nothing yet. -/
structure Started (w : World) (r : Sim.StartRequest) (p : Process) : Prop where
  stdin : Sim.childChannel? w .hostInput r.stdin = some p.stdin
  stdout : Sim.childChannel? w .hostOutput r.stdout = some p.stdout
  stderr : Sim.childChannel? w .hostError r.stderr = some p.stderr
  args : p.args = r.args
  hasRun : p.hasRun = false
  exit : p.exit = none
  seen : p.seen = none

end World

namespace Sim

open World

/-- What is known of a process that a request makes. -/
theorem prepare_ok {w : World} {r : StartRequest} {p : Process} (prepared : prepare w r = .ok p) :
    p.pid = 1001 + w.processes.length ∧ w.Started r p := by
  unfold prepare at prepared
  cases found : findProgram w r with
  | error e =>
    rw [found] at prepared
    cases prepared
  | ok program =>
    simp only [found, bind, Except.bind] at prepared
    split at prepared
    · next stdin stdout stderr inChannel outChannel errChannel =>
      cases prepared
      exact ⟨rfl, inChannel, outChannel, errChannel, rfl, rfl, rfl, rfl⟩
    · cases prepared

theorem exec_start {w : World} {r : StartRequest} {p : Process} (clean : r.args.any hasNull = false)
    (prepared : prepare w r = .ok p) : (start r).exec w = (.ok p.pid, w.addProcess p r) := by
  simp [start, exec_bind, clean, prepared]
  rfl

theorem exec_start_of_error {w : World} {r : StartRequest} {e : SystemError}
    (clean : r.args.any hasNull = false) (refused : prepare w r = .error e) :
    (start r).exec w = (.error (.system e), w.emit (.spawnFailed r.args e.symbol)) := by
  simp [start, exec_bind, clean, refused, fail]

theorem exec_start_of_null {w : World} {r : StartRequest} (null : r.args.any hasNull = true) :
    (start r).exec w = (.error (.misuse .embeddedNull), w) := by
  simp [start, null]

/-- A channel of a process is one of the standard channels, or one that is open. -/
theorem childChannel?_cases {w : World} {inherited c : Channel} {d : Option Descriptor}
    (channel : childChannel? w inherited d = some c) :
    c = inherited ∨ c = .null ∨ ∃ x ∈ w.descriptors, c = x.2 := by
  unfold childChannel? at channel
  split at channel
  · exact .inl (Option.some.inj channel).symm
  · split at channel
    · exact .inr (.inl (Option.some.inj channel).symm)
    · obtain ⟨x, found, rfl⟩ := Option.map_eq_some_iff.mp channel
      exact .inr (.inr ⟨x, List.mem_of_find?_eq_some found, rfl⟩)

end Sim

namespace World

theorem Sound.addProcess {w : World} {p : Process} {r : Sim.StartRequest} (sound : w.Sound)
    (pid : p.pid = 1001 + w.processes.length) (started : w.Started r p) :
    (w.addProcess p r).Sound where
  descriptors := sound.descriptors
  ends := sound.ends
  pids q member := by
    simp only [World.addProcess, emit, List.length_append, List.length_singleton, List.mem_append,
      List.mem_singleton] at member ⊢
    rcases member with old | rfl
    · have := sound.pids q old
      omega
    · omega
  streams q member c isStream pipe isEnd := by
    simp only [World.addProcess, emit, List.mem_append, List.mem_singleton] at member
    rcases member with old | rfl
    · exact sound.streams q old c isStream pipe isEnd
    · have known {inherited : Channel} {d : Option Descriptor} (standard : inherited.pipe? = none)
          (channel : Sim.childChannel? w inherited d = some c) : pipe < w.pipes.length := by
        rcases Sim.childChannel?_cases channel with rfl | rfl | ⟨x, isOpen, rfl⟩
        · rw [standard] at isEnd
          cases isEnd
        · cases isEnd
        · exact sound.ends x (List.mem_append_left _ isOpen) pipe isEnd
      simp only [List.mem_cons, List.not_mem_nil, or_false] at isStream
      rcases isStream with rfl | rfl | rfl
      · exact known rfl started.stdin
      · exact known rfl started.stdout
      · exact known rfl started.stderr

end World

end Pipework
