import Pipework.Error
import Pipework.Memory

/-!
# The simulated system

Processes, pipes, files, descriptors and a clock, all in one value. A process runs once, in one go, as
soon as it has the input it wants; nothing else moves by itself. Every call that matters leaves an event
in the trace.

An end of a pipe is open as long as a descriptor or a living process holds it; who holds what is never
stored, but counted.
-/

namespace Pipework

/-- What a descriptor leads to. -/
inductive Channel where
  /-- The host's stdin, which is always at its end. -/
  | hostInput
  | hostOutput
  | hostError
  /-- The null device. -/
  | null
  | readEnd (pipe : Nat)
  | writeEnd (pipe : Nat)
  /-- An opened file, by the number of its opening. -/
  | file (opening : Nat)
deriving DecidableEq, Repr

/-- A descriptor as it is given to a process: a number, or a truth value, which counts as 0 or 1. -/
inductive Descriptor where
  | number (n : Int)
  | truth (b : Bool)
deriving DecidableEq, Repr

/-- The number of a descriptor. -/
def Descriptor.toInt : Descriptor → Int
  | number n => n
  | truth b => if b then 1 else 0

/-- How a file is opened. -/
inductive FileMode where
  | read
  /-- Emptied first. -/
  | write
  /-- Always at the end. -/
  | append
deriving DecidableEq, Repr

/-- The word for a mode. -/
def FileMode.word : FileMode → String
  | read => "rb"
  | write => "wb"
  | append => "ab"

/-- One opening of a file; its position is shared by all who hold it. -/
structure Opening where
  name : Text
  mode : FileMode
  position : Nat := 0
deriving DecidableEq, Repr

/-- How much input a program waits for and takes. -/
inductive Appetite where
  | all
  | nothing
  | atMost (n : Nat)
deriving DecidableEq, Repr

/-- What a program makes of its input. -/
inductive InputView where
  | raw
  | upper
  | sorted
  | length
deriving DecidableEq, Repr

/-- The view of a word. -/
def InputView.ofWord (word : String) : InputView :=
  (List.lookup word [("upper", upper), ("sort", sorted), ("len", length)]).getD raw

/-- A part of what a program writes. -/
inductive Part where
  | bytes (b : Bytes)
  | repeated (b : Bytes) (count : Nat)
  | input (view : InputView)
  /-- The arguments after the first, joined. -/
  | arguments (separator : Bytes)
  /-- A variable of the environment. -/
  | variableOf (name : Text)
  /-- The working directory. -/
  | directory
deriving DecidableEq, Repr

/-- What a program does. -/
structure Program where
  out : List Part := []
  err : List Part := []
  reads : Appetite := .all
  code : Int := 0
  /-- It never ends by itself. -/
  hangs : Bool := false
  /-- A request to end does nothing. -/
  trapsTerminate : Bool := false
  delay : Time := 0
  /-- The symbol of the error that starting it gives. -/
  refusal : Option String := none
deriving DecidableEq, Repr

/-- The variables of an environment. -/
abbrev Environment := List (Text × Text)

/-- The value of a variable. -/
def Environment.get? (e : Environment) (name : Text) : Option Text :=
  (e.find? (·.1 == name)).map (·.2)

/-- The environment with a variable set. -/
def Environment.put (e : Environment) (name value : Text) : Environment :=
  e.filter (·.1 != name) ++ [(name, value)]

/-- The environment without a variable. -/
def Environment.erase (e : Environment) (name : Text) : Environment := e.filter (·.1 != name)

/-- A started process. -/
structure Process where
  pid : Nat
  args : List Text
  program : Program
  stdin : Channel
  stdout : Channel
  stderr : Channel
  environment : Environment
  directory : Option Text
  /-- It does not run before. -/
  readyAt : Time
  hasRun : Bool := false
  /-- The code it ended with. -/
  exit : Option Int := none
  /-- The code as its starter has seen it. -/
  seen : Option Int := none
deriving DecidableEq, Repr

namespace Process

/-- Whether a process has not ended. -/
def alive (p : Process) : Bool := p.exit.isNone

/-- Whether a process has neither run nor ended. -/
def waiting (p : Process) : Bool := p.alive && !p.hasRun

/-- How many of its three streams a living process has on a channel. -/
def holds (p : Process) (c : Channel) : Nat :=
  if p.alive then [p.stdin, p.stdout, p.stderr].count c else 0

end Process

/-- A call or a change that the trace shows. -/
inductive Event where
  | pipe (reading writing : Nat)
  | opened (path : Text) (mode : FileMode) (descriptor : Nat)
  | openFailed (path : Text) (mode : FileMode) (error : Text)
  | closed (descriptor : Nat)
  | spawned (pid : Nat) (args : List Text) (stdin stdout stderr : Option Descriptor)
  | spawnFailed (args : List Text) (error : Text)
  | exited (pid : Nat) (code : Int)
  | waited (pid : Nat) (limit : Option Time)
  | killed (pid : Nat)
  | terminated (pid : Nat)
  | threadStarted (name : Text)
  | joined (name : Text) (limit : Option Time)
deriving DecidableEq, Repr

/-- How much a log line matters. -/
inductive Level where
  | debug
  | info
  | warning
  | error
deriving DecidableEq, Repr

/-- The word for a level. -/
def Level.word : Level → String
  | debug => "DEBUG"
  | info => "INFO"
  | warning => "WARNING"
  | error => "ERROR"

/-- A line of the log. -/
structure LogLine where
  logger : Text
  level : Level
  message : Text
deriving DecidableEq, Repr

/-- The whole state of the system. -/
structure World where
  clock : Time := 0
  /-- Descriptors in use. -/
  descriptors : List (Nat × Channel) := [(0, .hostInput), (1, .hostOutput), (2, .hostError)]
  /-- Descriptors that were given up, with what they led to. -/
  retired : List (Nat × Channel) := []
  nextDescriptor : Nat := 10
  /-- What each pipe holds, by number. -/
  pipes : List Bytes := []
  /-- Every opening of a file, by number. -/
  openings : List Opening := []
  files : List (Text × Bytes) := []
  directories : List Text := []
  /-- Names that nobody may open. -/
  denied : List Text := []
  environment : Environment := []
  programs : List (Text × Program) := []
  /-- Every process, in the order of starting. -/
  processes : List Process := []
  hostOutput : Bytes := []
  hostError : Bytes := []
  memory : Memory := {}
  /-- The next free number of an object. -/
  nextNumber : Nat := 0
  /-- The processes that background reapers wait for, in the order in which those were started. -/
  reapers : List (Text × List Nat) := []
  trace : List Event := []
  log : List LogLine := []

/-- A step of the system: it may fail, and what it did stays done. -/
abbrev Sim := ExceptT Failure (StateM World)

/-- A step that also owns a state of its own, which it keeps when it fails. -/
abbrev Owning (σ : Type) := ExceptT Failure (StateT σ (StateM World))

instance {σ : Type} : MonadLift Sim (Owning σ) where
  monadLift m := ExceptT.mk (StateT.lift m.run)

/-- The state of the system. -/
def world : Sim World := get

/-- Put the system into a state. -/
def setWorld (w : World) : Sim Unit := set w

/-- An outcome as a step. -/
def Sim.ofExcept {α : Type} (e : Except Failure α) : Sim α := ExceptT.mk (pure e)

/-- The outcome of a step as a value; what the step did stays done. -/
def Sim.attempt {α : Type} (m : Sim α) : Sim (Except Failure α) := ExceptT.mk (do return .ok (← m.run))

namespace Owning

variable {σ τ α : Type}

/-- The state that a step owns. -/
def own : Owning σ σ := ExceptT.mk (do return .ok (← get))

/-- Change the state that a step owns. -/
def change (f : σ → σ) : Owning σ Unit := ExceptT.mk (do modify f; return .ok ())

/-- The outcome of a step as a value; what the step did stays done. -/
def attempt (m : Owning σ α) : Owning σ (Except Failure α) := ExceptT.mk (do return .ok (← m.run))

/-- Run a step on a part of the state. -/
def onPart (get : σ → τ) (put : τ → σ → σ) (m : Owning τ α) : Owning σ α :=
  ExceptT.mk fun s => do
    let (r, t) ← m.run.run (get s)
    return (r, put t s)

/-- Run a step with a state of its own, and answer the outcome with the state it ends in. -/
def runOn (m : Owning σ α) (s : σ) : StateM World (Except Failure α × σ) := m.run.run s

end Owning

namespace World

/-- The latest event goes in front; `events` turns the trace round. -/
def emit (w : World) (e : Event) : World := { w with trace := e :: w.trace }

/-- The events in the order in which they happened. -/
def events (w : World) : List Event := w.trace.reverse

/-- The log in the order in which it was written. -/
def lines (w : World) : List LogLine := w.log.reverse

/-- The channel of a descriptor. -/
def channel? (w : World) (descriptor : Int) : Option Channel :=
  (w.descriptors.find? fun (d, _) => (d : Int) == descriptor).map (·.2)

/-- How many descriptors and streams of living processes are on a channel. -/
def holders (w : World) (c : Channel) : Nat :=
  w.descriptors.countP (·.2 == c) + (w.processes.map (·.holds c)).foldr (· + ·) 0

/-- Whether anybody can still read from a pipe. -/
def hasReader (w : World) (pipe : Nat) : Bool := 0 < w.holders (.readEnd pipe)

/-- Whether anybody can still write to a pipe. -/
def hasWriter (w : World) (pipe : Nat) : Bool := 0 < w.holders (.writeEnd pipe)

/-- What a pipe holds. -/
def content (w : World) (pipe : Nat) : Bytes := w.pipes.getD pipe []

/-- The system with the content of a pipe replaced. -/
def setContent (w : World) (pipe : Nat) (b : Bytes) : World := { w with pipes := w.pipes.set pipe b }

/-- The process of a number. -/
def process? (w : World) (pid : Nat) : Option Process := w.processes.find? (·.pid == pid)

/-- The system with one process changed. -/
def changeProcess (w : World) (pid : Nat) (f : Process → Process) : World :=
  { w with processes := w.processes.map fun p => if p.pid == pid then f p else p }

/-- The content of a file. -/
def file? (w : World) (name : Text) : Option Bytes := (w.files.find? (·.1 == name)).map (·.2)

/-- The system with the content of a file replaced. -/
def putFile (w : World) (name : Text) (b : Bytes) : World :=
  if w.files.any (·.1 == name) then
    { w with files := w.files.map fun (n, old) => if n == name then (n, b) else (n, old) }
  else { w with files := w.files ++ [(name, b)] }

end World

/-- Write a line to the log. -/
def note (logger : Text) (level : Level) (message : Text) : Sim Unit :=
  modify fun w => { w with log := ⟨logger, level, message⟩ :: w.log }

/-- Leave an event in the trace. -/
def emit (e : Event) : Sim Unit := modify (·.emit e)

end Pipework
