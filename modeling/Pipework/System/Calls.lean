import Pipework.Graph.Basic
import Pipework.System.Schedule

/-!
# System calls

What the library may ask of the system: pipes, files and descriptors, and the life of a process. A
process is known by its number; how it ended becomes known to its starter only by `poll` or `wait`.
-/

namespace Pipework

namespace Sim

/-- Fail with an error of the system. -/
def fail {α : Type} (e : SystemError) : Sim α := throw (.system e)

/-- Put a channel under the next descriptor. -/
def allocate (c : Channel) : Sim Nat :=
  modifyGet fun w => (w.nextDescriptor,
    { w with
      nextDescriptor := w.nextDescriptor + 1
      descriptors := w.descriptors ++ [(w.nextDescriptor, c)] })

/-- A new pipe: the descriptors of its read end and of its write end. -/
def pipe : Sim (Nat × Nat) := do
  let id := (← get).pipes.length
  modify fun w => { w with pipes := w.pipes ++ [[]] }
  let reading ← allocate (.readEnd id)
  let writing ← allocate (.writeEnd id)
  emit (.pipe reading writing)
  return (reading, writing)

/-- Give up a descriptor. -/
def close (descriptor : Nat) : Sim Unit := do
  if (← get).descriptors.any (·.1 == descriptor) then
    modify fun w =>
      { w with
        descriptors := w.descriptors.filter (·.1 != descriptor)
        retired := w.descriptors.filter (·.1 == descriptor) ++ w.retired }
    emit (.closed descriptor)
  else fail .badDescriptor

/-- Why a file cannot be opened, if it cannot. -/
def openError? (w : World) (path : Text) (mode : FileMode) : Option SystemError :=
  if w.denied.contains path then some (.ofSymbol "EACCES" (some path))
  else if w.directories.contains path then some (.ofSymbol "EISDIR" (some path))
  else if path.isEmpty || (mode = .read && (w.file? path).isNone) then
    some (.ofSymbol "ENOENT" (some path))
  else none

/-- Open a file. -/
def openFile (path : Text) (mode : FileMode) : Sim Nat := do
  let w ← get
  match openError? w path mode with
  | some e =>
    emit (.openFailed path mode e.symbol)
    fail e
  | none =>
    let content := (w.file? path).getD []
    match mode with
    | .read => pure ()
    | .write => modify (·.putFile path [])
    | .append => modify (·.putFile path content)
    let id := w.openings.length
    modify fun w => { w with openings := w.openings ++ [⟨path, mode, 0⟩] }
    let descriptor ← allocate (.file id)
    emit (.opened path mode descriptor)
    return descriptor

/-- What starting a process is asked for. `none` for a stream means the host's. -/
structure StartRequest where
  args : List Text
  stdin : Option Descriptor := none
  stdout : Option Descriptor := none
  stderr : Option Descriptor := none
  directory : Option Text := none
  /-- `none` means the environment of the system. -/
  environment : Option Environment := none
deriving DecidableEq, Repr

/-- The channel that a process gets for a stream; `none` if the descriptor is not open. -/
def childChannel? (w : World) (inherited : Channel) : Option Descriptor → Option Channel
  | none => some inherited
  | some d => if d.toInt = Target.nullNumber then some .null else w.channel? d.toInt

/-- Whether a text holds a zero byte. -/
def hasNull (t : Text) : Bool := t.contains (.char '\x00')

/-- The program of a request, or why it cannot be started. -/
def findProgram (w : World) (r : StartRequest) : Except SystemError Program :=
  let name := r.args.headD []
  match r.directory.filter (!w.directories.contains ·) with
  | some missing => .error (.ofSymbol "ENOENT" (some missing))
  | none =>
    match (w.programs.find? (·.1 == name)).map (·.2) with
    | none => .error (.ofSymbol "ENOENT" (some name))
    | some program =>
      match program.refusal with
      | some symbol => .error (.ofSymbol symbol (some name))
      | none => .ok program

/-- The process that a request makes, or why there is none. -/
def prepare (w : World) (r : StartRequest) : Except SystemError Process := do
  let program ← findProgram w r
  match childChannel? w .hostInput r.stdin, childChannel? w .hostOutput r.stdout,
      childChannel? w .hostError r.stderr with
  | some stdin, some stdout, some stderr =>
    return {
      pid := 1001 + w.processes.length
      args := r.args
      program, stdin, stdout, stderr
      environment := r.environment.getD w.environment
      directory := r.directory
      readyAt := w.clock + program.delay }
  | _, _, _ => throw .badDescriptor

/-- Start a process. Numbers count from 1001, and a failed start takes none. -/
def start (r : StartRequest) : Sim Nat := do
  if r.args.any hasNull then throw (.misuse .embeddedNull)
  match prepare (← get) r with
  | .error e =>
    emit (.spawnFailed r.args e.symbol)
    fail e
  | .ok p =>
    modify fun w => { w with processes := w.processes ++ [p] }
    emit (.spawned p.pid r.args r.stdin r.stdout r.stderr)
    return p.pid

/-- The code of a process as far as its starter knows. -/
def seenCode (pid : Nat) : Sim (Option Int) := do
  return ((← get).process? pid).bind (·.seen)

/-- Take notice of how a process stands. -/
def look (pid : Nat) : Sim (Option Int) := do
  modify (·.changeProcess pid fun p => { p with seen := p.exit })
  seenCode pid

/-- The code of a process, if it has ended by now. -/
def poll (pid : Nat) : Sim (Option Int) := do
  settle
  look pid

/-- Whether a process has ended. -/
def hasEnded (pid : Nat) (w : World) : Bool :=
  match w.process? pid with
  | some p => !p.alive
  | none => true

/-- Wait until a process ends, at most for a span. -/
def wait (pid : Nat) (limit : Option Time) : Sim Unit := do
  emit (.waited pid limit)
  if ← runUntil (hasEnded pid) limit then
    let _ ← look pid
  else
    let args := (((← get).process? pid).map (·.args)).getD []
    throw (.timeout args (limit.getD 0))

/-- End a process if it is alive. -/
def endNow (pid : Nat) (signal : Nat) : Sim Unit :=
  modify fun w => if hasEnded pid w then w else w.endProcess pid (World.signalCode signal)

/-- End a process at once. -/
def kill (pid : Nat) : Sim Unit := do
  emit (.killed pid)
  endNow pid Signal.kill

/-- Ask a process to end. -/
def terminate (pid : Nat) : Sim Unit := do
  emit (.terminated pid)
  match (← get).process? pid with
  | some p => if p.program.trapsTerminate then pure () else endNow pid Signal.terminate
  | none => pure ()

end Sim

end Pipework
