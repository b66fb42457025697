import Pipework.Proofs.System.Descriptors
import Pipework.Proofs.Wiring.Chores

/-!
# The steps of wiring

What each chore does to the wiring and to the system, as one relation: `Chore.Effect` has a case for
every way in which a chore can end, with the exact states before and after. Later modules prove
their invariants by these cases and never run a step again.
-/

namespace Pipework

namespace World

/-- The end of the next pipe that the redirected node gets. -/
def nearEnd (w : World) (s : Stream) : Nat :=
  if s = .stdin then w.nextDescriptor else w.nextDescriptor + 1

/-- The other end of the next pipe. -/
def farEnd (w : World) (s : Stream) : Nat :=
  if s = .stdin then w.nextDescriptor + 1 else w.nextDescriptor

/-- The system with a line in its log. -/
def written (w : World) (line : LogLine) : World := { w with log := line :: w.log }

/-- A line in the log changes nothing else. -/
theorem passes_written (w : World) (line : LogLine) : w.Passes (w.written line) [] :=
  passes_of_same rfl rfl rfl rfl rfl rfl rfl

end World

namespace Wiring

variable (σ : Wiring) (w : World)

/-- The wiring with descriptors that only the commands need. -/
def give (σ : Wiring) (descriptors : List Nat) : Wiring :=
  { σ with childDescriptors := σ.childDescriptors ++ descriptors }

/-- Which way the pump of a stream moves bytes. -/
def directionOf (s : Stream) : Direction := if s = .stdin then .feed else .drain

/-- The next pump of a wiring, on an end of a pipe. -/
def nextPump (σ : Wiring) (s : Stream) (descriptor : Nat) (content : Buffer) : Pump :=
  Pump.make (directionOf s) (.descriptor descriptor) content (s.text ++ Text.ofNat σ.pumps.length)
    σ.settings.logger σ.settings.pumps

/-- A new end for the caller. -/
def newEndpoint (s : Stream) (descriptor : Nat) : Endpoint :=
  if s = .stdin then .writer ⟨descriptor, [], false⟩ else .reader ⟨descriptor, false⟩

/-- What is asked for to start a command in a context. -/
def requestOf (σ : Wiring) (command : Command) (c : Context) : Sim.StartRequest where
  args := command.args
  stdin := c.stdin
  stdout := c.stdout
  stderr := c.stderr
  directory := σ.settings.directory
  environment := σ.settings.environment

@[simp] theorem exec_say (level : Level) (text : Text) :
    (say level text).exec σ w = (.ok (), σ, w.written ⟨σ.settings.logger, level, text⟩) := by
  simp only [say, Owning.exec_bind, Owning.exec_own, Owning.exec_lift, Sim.exec_note]
  rfl

@[simp] theorem exec_forChildren (descriptors : List Nat) :
    (forChildren descriptors).exec σ w = (.ok (), σ.give descriptors, w) := rfl

theorem exec_resolveBuffer (content : Buffer) (s : Stream) :
    (resolveBuffer content s).exec σ w
      = (.ok { value := .number (w.nearEnd s) },
        { σ.give [w.nearEnd s] with pumps := σ.pumps ++ [σ.nextPump s (w.farEnd s) content] },
        w.addPipe) := by
  simp only [resolveBuffer, Owning.exec_bind, Owning.exec_lift, Sim.exec_pipe]
  cases s <;> rfl

theorem exec_resolveGraph (s : Stream) (outer : Context) :
    (resolveGraph s outer).exec σ w
      = (.ok { value := .number (w.nearEnd s)
               deferred := some (outer.set (Graph.farStream s) (.number (w.farEnd s))) },
        σ.give [w.nextDescriptor, w.nextDescriptor + 1], w.addPipe) := by
  simp only [resolveGraph, Owning.exec_bind, Owning.exec_lift, Sim.exec_pipe, exec_forChildren]
  cases s <;> rfl

theorem exec_resolveEndpoint (s : Stream) :
    (resolveEndpoint s).exec σ w
      = (.ok { value := .number (w.nearEnd s) },
        { σ.give [w.nearEnd s] with endpoints := σ.endpoints ++ [(s, newEndpoint s (w.farEnd s))] },
        w.addPipe) := by
  simp only [resolveEndpoint, Owning.exec_bind, Owning.exec_lift, Sim.exec_pipe]
  cases s <;> rfl

/-- A file that can be opened. -/
theorem exec_resolveFile {w : World} (label : Label) {name : Text} {append : Bool} {s : Stream}
    (fine : Sim.openError? w name (fileMode s append) = none) :
    ∃ line, (resolveFile ⟨label, .str name⟩ append s).exec σ w
      = (.ok { value := .number w.nextDescriptor },
        { σ with files := σ.files ++ [w.nextDescriptor] },
        ((w.readyFile name (fileMode s append)).addOpening name (fileMode s append)).written
        line) := by
  simp only [resolveFile, Owning.exec_bind, Owning.exec_lift, Sim.exec_openFile fine,
    Owning.exec_change, Sim.exec_world, exec_say, Owning.exec_pure]
  exact ⟨_, rfl⟩

/-- A file that cannot be opened. -/
theorem exec_resolveFile_of_error {w : World} {label : Label} {name : Text} {append : Bool}
    {s : Stream} {e : SystemError} (refused : Sim.openError? w name (fileMode s append) = some e) :
    (resolveFile ⟨label, .str name⟩ append s).exec σ w
      = (.error (.system e), σ, w.emit (.openFailed name (fileMode s append) e.symbol)) := by
  simp only [resolveFile, Owning.exec_bind, Owning.exec_lift, Sim.exec_openFile_of_error refused]

theorem exec_resolveStream {v : Value} {d : Descriptor} (given : v.descriptor? = some d) :
    (resolveStream v).exec σ w = (.ok { value := d }, σ, w) := by
  cases v <;> cases given <;> rfl

omit σ w in
/-- A value that is no descriptor and has none is refused in every state alike. -/
theorem exec_resolveStream_of_none {v : Value} (none : v.descriptor? = none) :
    ∃ e, (∀ failures, e ≠ .spawn failures) ∧ ∀ σ w, (resolveStream v).exec σ w = (.error e, σ, w) := by
  cases v with
  | int n => cases none
  | bool b => cases none
  | file descriptor => cases none
  | lostFile reason => cases reason <;> exact ⟨_, by rintro _ ⟨⟩, fun _ _ => rfl⟩
  | object ref =>
    obtain ⟨id, kind⟩ := ref
    cases kind <;> exact ⟨_, by rintro _ ⟨⟩, fun _ _ => rfl⟩
  | _ => exact ⟨_, by rintro _ ⟨⟩, fun _ _ => rfl⟩

theorem exec_startLeaf {σ : Wiring} {w : World} {command : Command} {c : Context} {p : Process}
    (clean : command.args.any Sim.hasNull = false)
    (prepared : Sim.prepare w (σ.requestOf command c) = .ok p) :
    ∃ line, (startLeaf command c).exec σ w
      = (.ok (), { σ with processes := σ.processes ++ [(command, p.pid)] },
        (w.addProcess p (σ.requestOf command c)).written line) := by
  have started := Sim.exec_start (r := σ.requestOf command c) clean prepared
  unfold requestOf at started
  simp only [startLeaf, Owning.exec_bind, Owning.exec_own, Owning.exec_lift, Sim.exec_attempt,
    started, exec_say, Owning.exec_change]
  exact ⟨_, rfl⟩

theorem exec_startLeaf_of_error {σ : Wiring} {w : World} {command : Command} {c : Context}
    {e : SystemError} (clean : command.args.any Sim.hasNull = false)
    (refused : Sim.prepare w (σ.requestOf command c) = .error e) :
    ∃ line, (startLeaf command c).exec σ w
      = (.ok (),
        { σ with failures := σ.failures ++ [⟨.command command, SpawnReason.ofError e, e⟩] },
        (w.emit (.spawnFailed command.args e.symbol)).written line) := by
  have started := Sim.exec_start_of_error (r := σ.requestOf command c) clean refused
  unfold requestOf at started
  simp only [startLeaf, Owning.exec_bind, Owning.exec_own, Owning.exec_lift, Sim.exec_attempt,
    started, recordFailure, exec_say, Owning.exec_change]
  exact ⟨_, rfl⟩

theorem exec_startLeaf_of_null {σ : Wiring} {w : World} {command : Command} {c : Context}
    (null : command.args.any Sim.hasNull = true) :
    (startLeaf command c).exec σ w = (.error (.misuse .embeddedNull), σ, w) := by
  have started := Sim.exec_start_of_null (w := w) (r := σ.requestOf command c) null
  unfold requestOf at started
  simp only [startLeaf, Owning.exec_bind, Owning.exec_own, Owning.exec_lift, Sim.exec_attempt,
    started, Owning.exec_throw]

end Wiring

namespace Chore

open Wiring

/-- The context that some claims make. -/
def contextOf (value : Claim → Descriptor) (claim : Stream → Option Claim) : Context where
  stdin := (claim .stdin).map value
  stdout := (claim .stdout).map value
  stderr := (claim .stderr).map value

/-- The event of a command that was started in a context. -/
def spawnedEvent (command : Command) (c : Context) (p : Process) : Event :=
  .spawned p.pid command.args c.stdin c.stdout c.stderr

/-- Do a chore, when it is known what every claim gets. -/
def perform (value : Claim → Descriptor) : Chore → Wire Unit
  | redirect _ s target => do
    let _ ← resolve target s {}
  | edge _ => do
    let (reading, writing) ← Sim.pipe
    forChildren [reading, writing]
  | start leaf above =>
    match leaf.commandOf with
    | .ok command => startLeaf command (contextOf value (leaf.nearest above))
    | .error e => Wiring.refuse e
  | refuse e => Wiring.refuse e

/-- Do some chores, up to the first one that fails. -/
def performAll (value : Claim → Descriptor) : List Chore → Wire Unit
  | [] => return
  | c :: rest => do
    c.perform value
    performAll value rest

/-- What a chore does: its outcome, the events that it leaves, and the states after it. -/
inductive Effect (value : Claim → Descriptor) (σ : Wiring) (w : World) :
    Chore → Except Failure Unit → List Event → Wiring → World → Prop where
  /-- The command gets one end of a new pipe, and a pump the other. -/
  | buffer (place s held) :
    Effect value σ w (.redirect place s (.buffer held)) (.ok ())
      [.pipe w.nextDescriptor (w.nextDescriptor + 1)]
      { σ.give [w.nearEnd s] with pumps := σ.pumps ++ [σ.nextPump s (w.farEnd s) held.it.toBuffer] }
        w.addPipe
  /-- The command gets one end of a new pipe, and the caller the other. -/
  | endpoint (place s) :
    Effect value σ w (.redirect place s .endpoint) (.ok ())
      [.pipe w.nextDescriptor (w.nextDescriptor + 1)]
      { σ.give [w.nearEnd s] with endpoints := σ.endpoints ++ [(s, newEndpoint s (w.farEnd s))] }
        w.addPipe
  /-- Both ends of a new pipe are for commands. -/
  | graph (place s g) :
    Effect value σ w (.redirect place s (.graph g)) (.ok ())
      [.pipe w.nextDescriptor (w.nextDescriptor + 1)]
      (σ.give [w.nextDescriptor, w.nextDescriptor + 1]) w.addPipe
  | edge (place) :
    Effect value σ w (.edge place) (.ok ()) [.pipe w.nextDescriptor (w.nextDescriptor + 1)]
      (σ.give [w.nextDescriptor, w.nextDescriptor + 1]) w.addPipe
  | file (place s label name append line)
      (fine : Sim.openError? w name (fileMode s append) = none) :
    Effect value σ w (.redirect place s (.file ⟨label, .str name⟩ append)) (.ok ())
      [.opened name (fileMode s append) w.nextDescriptor]
        { σ with files := σ.files ++ [w.nextDescriptor] }
      (((w.readyFile name (fileMode s append)).addOpening name (fileMode s append)).written line)
  | fileRefused (place s label name append e)
      (refused : Sim.openError? w name (fileMode s append) = some e) :
    Effect value σ w (.redirect place s (.file ⟨label, .str name⟩ append)) (.error (.system e))
      [.openFailed name (fileMode s append) e.symbol] σ
        (w.emit (.openFailed name (fileMode s append) e.symbol))
  | given (place s held d) (given : held.it.descriptor? = some d) :
    Effect value σ w (.redirect place s (.stream held)) (.ok ()) [] σ w
  | started (leaf above command p line) (isLeaf : leaf.commandOf = .ok command)
    (prepared : Sim.prepare w (σ.requestOf command (contextOf value (leaf.nearest above))) =
      .ok p) :
    Effect value σ w (.start leaf above) (.ok ())
      [spawnedEvent command (contextOf value (leaf.nearest above)) p]
      { σ with processes := σ.processes ++ [(command, p.pid)] }
      ((w.addProcess p (σ.requestOf command (contextOf value (leaf.nearest above)))).written line)
  | notStarted (leaf above command e line) (isLeaf : leaf.commandOf = .ok command)
    (refused : Sim.prepare w (σ.requestOf command (contextOf value (leaf.nearest above))) =
      .error e) :
    Effect value σ w (.start leaf above) (.ok ()) [.spawnFailed command.args e.symbol]
      { σ with failures := σ.failures ++ [⟨.command command, SpawnReason.ofError e, e⟩] }
      ((w.emit (.spawnFailed command.args e.symbol)).written line)
  /-- A chore that cannot be done at all leaves everything as it is. -/
  | stuck (c e) : Effect value σ w c (.error e) [] σ w

theorem perform_effect (value : Claim → Descriptor) (c : Chore) (σ : Wiring) (w : World) :
    ∃ events, Effect value σ w c ((c.perform value).exec σ w).1 events
      ((c.perform value).exec σ w).2.1
      ((c.perform value).exec σ w).2.2 := by
  cases c with
  | redirect place s target =>
    cases target with
    | file path append =>
      obtain ⟨label, v⟩ := path
      cases v with
      | str name =>
        cases found : Sim.openError? w name (fileMode s append) with
        | none =>
          obtain ⟨line, run⟩ := exec_resolveFile σ label found
          simp only [perform, resolve, Owning.exec_bind, run, Owning.exec_pure]
          exact ⟨_, .file place s label name append line found⟩
        | some e =>
          simp only [perform, resolve, Owning.exec_bind, exec_resolveFile_of_error σ found]
          exact ⟨_, .fileRefused place s label name append e found⟩
      | _ => exact ⟨_, .stuck _ _⟩
    | buffer held =>
      simp only [perform, resolve, Owning.exec_bind, exec_resolveBuffer, Owning.exec_pure]
      exact ⟨_, .buffer place s held⟩
    | graph g =>
      simp only [perform, resolve, Owning.exec_bind, exec_resolveGraph, Owning.exec_pure]
      exact ⟨_, .graph place s g⟩
    | stream held =>
      cases found : held.it.descriptor? with
      | some d =>
        simp only [perform, resolve, Owning.exec_bind, exec_resolveStream σ w found,
          Owning.exec_pure]
        exact ⟨_, .given place s held d found⟩
      | none =>
        obtain ⟨e, -, run⟩ := exec_resolveStream_of_none found
        simp only [perform, resolve, Owning.exec_bind, run]
        exact ⟨_, .stuck _ e⟩
    | endpoint =>
      simp only [perform, resolve, Owning.exec_bind, exec_resolveEndpoint, Owning.exec_pure]
      exact ⟨_, .endpoint place s⟩
    | unknown name => exact ⟨_, .stuck _ _⟩
    | stray held => exact ⟨_, .stuck _ _⟩
  | edge place =>
    simp only [perform, Owning.exec_bind, Owning.exec_lift, Sim.exec_pipe, exec_forChildren]
    exact ⟨_, .edge place⟩
  | start leaf above =>
    simp only [perform]
    cases isLeaf : leaf.commandOf with
    | error e => exact ⟨_, .stuck _ _⟩
    | ok command =>
      dsimp only
      by_cases null : command.args.any Sim.hasNull = true
      · rw [exec_startLeaf_of_null null]
        exact ⟨_, .stuck _ _⟩
      · have clean : command.args.any Sim.hasNull = false := by simpa using null
        cases prepared : Sim.prepare w (σ.requestOf command
          (contextOf value (leaf.nearest above))) with
        | ok p =>
          obtain ⟨line, run⟩ := exec_startLeaf clean prepared
          rw [run]
          exact ⟨_, .started leaf above command p line isLeaf prepared⟩
        | error e =>
          obtain ⟨line, run⟩ := exec_startLeaf_of_error clean prepared
          rw [run]
          exact ⟨_, .notStarted leaf above command e line isLeaf prepared⟩
  | refuse e => exact ⟨_, .stuck _ _⟩

/-! ## One chore -/

/-- The pipe of a pipe node can always be made. -/
theorem perform_edge (value : Claim → Descriptor) (place : Place) (σ : Wiring) (w : World) :
    ((Chore.edge place).perform value).exec σ w =
      (.ok (), σ.give [w.nextDescriptor, w.nextDescriptor + 1], w.addPipe) := by
  simp only [perform, Owning.exec_bind, Owning.exec_lift, Sim.exec_pipe, exec_forChildren]

section Start

variable {value : Claim → Descriptor} {leaf : Graph} {above : Lineage} {command : Command} {σ : Wiring} {w : World}

theorem perform_start (isLeaf : leaf.commandOf = .ok command) :
    ((Chore.start leaf above).perform value).exec σ w =
      (startLeaf command (contextOf value (leaf.nearest above))).exec σ w := by
  rw [perform, isLeaf]

theorem perform_start_of_error {e : BuildError} (value : Claim → Descriptor) (above : Lineage) (σ : Wiring)
    (w : World) (isLeaf : leaf.commandOf = .error e) :
    ((Chore.start leaf above).perform value).exec σ w = (.error (e.failure w.memory), σ, w) := by
  rw [perform, isLeaf]
  rfl

end Start

section Redirect

variable {value : Claim → Descriptor} {place : Place} {s : Stream} {target : Target} {σ σ' : Wiring} {w w' : World}

/-- A redirect is done when it is resolved. -/
theorem perform_resolved {a : Resolved} (ran : (resolve target s {}).exec σ w = (.ok a, σ', w')) :
    ((Chore.redirect place s target).perform value).exec σ w = (.ok (), σ', w') := by
  rw [perform, Owning.exec_bind, ran]
  rfl

theorem perform_unresolved {e : Failure} (ran : (resolve target s {}).exec σ w = (.error e, σ', w')) :
    ((Chore.redirect place s target).perform value).exec σ w = (.error e, σ', w') := by
  rw [perform, Owning.exec_bind, ran]

end Redirect

end Chore

/-- Refused graphs have no failed commands. -/
theorem BuildError.failure_ne_spawn (e : BuildError) (m : Memory) (failures : List SpawnFailure) :
    e.failure m ≠ .spawn failures := by
  cases e <;> rintro ⟨⟩

end Pipework
