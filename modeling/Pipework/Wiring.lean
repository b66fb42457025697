import Pipework.Graph.Build
import Pipework.Pump
import Pipework.Wording

/-!
# Wiring a graph

Starting a graph walks over it and gives every command its three streams. A `Context` says what each
stream is outside a node; the node's redirects replace it inside. A pipe gives its two ends to its two
parts. A graph that a redirect leads to is walked after the node's own commands, in the context outside
the node, with the far end of its pipe in place.

The wiring keeps account of everything that it opens: what belongs to the commands is closed here as
soon as they have it, and what the caller and the pumps keep is handed over.
-/

namespace Pipework

/-- What each stream is outside a node; `none` is the host's. -/
structure Context where
  stdin : Option Descriptor := none
  stdout : Option Descriptor := none
  stderr : Option Descriptor := none
deriving DecidableEq, Repr

namespace Context

/-- What one stream is. -/
def get (c : Context) : Stream → Option Descriptor
  | .stdin => c.stdin
  | .stdout => c.stdout
  | .stderr => c.stderr

/-- The context with one stream replaced. -/
def set (c : Context) (s : Stream) (value : Descriptor) : Context :=
  match s with
  | .stdin => { c with stdin := some value }
  | .stdout => { c with stdout := some value }
  | .stderr => { c with stderr := some value }

end Context

/-- An end of a pipe for the caller. -/
inductive Endpoint where
  | writer (w : Writer)
  | reader (r : Reader)
deriving DecidableEq, Repr

/-- How commands are started. -/
structure StartSettings where
  directory : Option Text := none
  environment : Option Environment := none
  pumps : PumpSettings := {}
  logger : Text := "ExecutionEngine"
deriving DecidableEq, Repr

/-- Everything that the start of a graph has made so far. -/
structure Wiring where
  settings : StartSettings
  processes : List (Command × Nat) := []
  failures : List SpawnFailure := []
  pumps : List Pump := []
  /-- The caller's ends, in the order in which they were made. -/
  endpoints : List (Stream × Endpoint) := []
  /-- Descriptors that only the commands need. -/
  childDescriptors : List Nat := []
  /-- Descriptors of opened files. -/
  files : List Nat := []

/-- A step of wiring. -/
abbrev Wire := Owning Wiring

/-- What a redirect resolves to: the descriptor inside the node, and the context in which the graph it
leads to is walked later. -/
structure Resolved where
  value : Descriptor
  deferred : Option Context := none
deriving DecidableEq, Repr

namespace Wiring

/-- Write a line to the log. -/
def say (level : Level) (text : Text) : Wire Unit := do
  note (← Owning.own).settings.logger level text

/-- Remember descriptors that only the commands need. -/
def forChildren (descriptors : List Nat) : Wire Unit :=
  Owning.change fun w => { w with childDescriptors := w.childDescriptors ++ descriptors }

/-- Add a pump, named for its stream and its number. -/
def addPump (direction : Direction) (descriptor : Nat) (buffer : Buffer) (s : Stream) : Wire Unit :=
  Owning.change fun w =>
    { w with
      pumps := w.pumps ++ [Pump.make direction (.descriptor descriptor) buffer
        (s.text ++ Text.ofNat w.pumps.length) w.settings.logger w.settings.pumps] }

/-- How a file is opened for a stream. -/
def fileMode (s : Stream) (append : Bool) : FileMode :=
  if s = .stdin then .read else if append then .append else .write

/-- Open the file of a redirect; only a text names one. -/
def resolveFile (path : Item) (append : Bool) (s : Stream) : Wire Resolved := do
  match path.it with
  | .str name =>
    let descriptor ← Sim.openFile name (fileMode s append)
    Owning.change fun w => { w with files := w.files ++ [descriptor] }
    say .debug (s.text ++ " " ++ (Target.file path append).shown (← world).memory)
    return { value := .number descriptor }
  | _ => throw .wrongType

/-- Make the pipe and the pump of a buffer. -/
def resolveBuffer (content : Buffer) (s : Stream) : Wire Resolved := do
  let (reading, writing) ← Sim.pipe
  if s = .stdin then
    forChildren [reading]
    addPump .feed writing content s
    return { value := .number reading }
  else
    forChildren [writing]
    addPump .drain reading content s
    return { value := .number writing }

/-- Make the pipe to another graph, which is walked later in the context outside the node. -/
def resolveGraph (s : Stream) (outer : Context) : Wire Resolved := do
  let (reading, writing) ← Sim.pipe
  forChildren [reading, writing]
  if s = .stdin then return { value := .number reading, deferred := some (outer.set .stdout (.number writing)) }
  else return { value := .number writing, deferred := some (outer.set .stdin (.number reading)) }

/-- The descriptor of the caller. -/
def resolveStream (v : Value) : Wire Resolved :=
  match v with
  | .int n => return { value := .number n }
  | .bool b => return { value := .truth b }
  | .file descriptor => return { value := .number descriptor }
  | .lostFile .system => throw (.system (.plain "no fd"))
  | .lostFile .value => throw (.misuse .noDescriptor)
  | .object ref =>
    match ref.kind with
    | .byteStream | .textStream | .textSink => throw (.unsupported "fileno")
    | kind => throw (.lacking kind.label "fileno")
  | v => throw (.lacking v.typeName "fileno")

/-- Make the pipe of an end for the caller. -/
def resolveEndpoint (s : Stream) : Wire Resolved := do
  let (reading, writing) ← Sim.pipe
  if s = .stdin then
    forChildren [reading]
    Owning.change fun w => { w with endpoints := w.endpoints ++ [(s, .writer ⟨writing, [], false⟩)] }
    return { value := .number reading }
  else
    forChildren [writing]
    Owning.change fun w => { w with endpoints := w.endpoints ++ [(s, .reader ⟨reading, false⟩)] }
    return { value := .number writing }

/-- Fail, for a graph that cannot be started. -/
def refuse {α : Type} (e : BuildError) : Wire α := do throw (e.failure (← world).memory)

/-- Make what a redirect asks for. -/
def resolve (t : Target) (s : Stream) (outer : Context) : Wire Resolved :=
  match t with
  | .file path append => resolveFile path append s
  | .buffer held => resolveBuffer held.it.toBuffer s
  | .graph _ => resolveGraph s outer
  | .stream held => resolveStream held.it
  | .endpoint => resolveEndpoint s
  | .unknown _ | .stray _ => refuse (.unknownTarget t)

/-- Make what a redirect asks for, if there is one. -/
def resolve? (t : Option (Labelled Target)) (s : Stream) (outer : Context) : Wire (Option Resolved) :=
  match t with
  | none => return none
  | some t => return some (← resolve t.it s outer)

/-- What the redirects of a node resolve to. -/
structure ResolvedNode where
  stdin : Option Resolved := none
  stdout : Option Resolved := none
  stderr : Option Resolved := none
deriving DecidableEq, Repr

/-- The context inside a node. -/
def ResolvedNode.inner (n : ResolvedNode) (outer : Context) : Context :=
  { stdin := (n.stdin.map (·.value)).or outer.stdin
    stdout := (n.stdout.map (·.value)).or outer.stdout
    stderr := (n.stderr.map (·.value)).or outer.stderr }

/-- Make what the redirects of a node ask for, in stream order. -/
def resolveNode (r : Redirects) (outer : Context) : Wire ResolvedNode := do
  let stdin ← resolve? r.stdin .stdin outer
  let stdout ← resolve? r.stdout .stdout outer
  let stderr ← resolve? r.stderr .stderr outer
  return ⟨stdin, stdout, stderr⟩

/-- Note that a command could not be started. -/
def recordFailure (command : Command) (e : SystemError) : Wire Unit := do
  let reason := SpawnReason.ofError e
  say .debug ("Spawn failed (" ++ reason.word ++ "): " ++ command.line ++ ": " ++ e.message)
  Owning.change fun w => { w with failures := w.failures ++ [⟨.command command, reason, e⟩] }

/-- Start one command. An error of the system is noted, and the walk goes on. -/
def startLeaf (command : Command) (inner : Context) : Wire Unit := do
  let settings := (← Owning.own).settings
  let request : Sim.StartRequest :=
    { args := command.args
      stdin := inner.stdin, stdout := inner.stdout, stderr := inner.stderr
      directory := settings.directory
      environment := settings.environment }
  match ← (Sim.start request).attempt with
  | .ok pid =>
    say .debug ("Spawned pid " ++ Text.ofNat pid ++ ": " ++ command.line)
    Owning.change fun w => { w with processes := w.processes ++ [(command, pid)] }
  | .error (.system e) => recordFailure command e
  | .error e => throw e

mutual

/-- Start every command of a graph in a context. -/
def walk (outer : Context) : Graph → Wire Unit
  | .leaf number held r => do
    let node ← resolveNode r outer
    match Graph.commandOf (.leaf number held r) with
    | .ok command => startLeaf command (node.inner outer)
    | .error e => refuse e
    walkAttached node r
  | .pipe _ left right r => do
    let node ← resolveNode r outer
    let inner := node.inner outer
    let (reading, writing) ← Sim.pipe
    forChildren [reading, writing]
    walk (inner.set .stdout (.number writing)) left
    walk (inner.set .stdin (.number reading)) right
    walkAttached node r
  | .group _ _ members r => do
    let node ← resolveNode r outer
    walkMembers (node.inner outer) members
    walkAttached node r
  | .unknown _ name => refuse (.unknownNode name)
  | .stray held => refuse (.noNode held.it.typeName)

/-- Start every command of the members of a group. -/
def walkMembers (inner : Context) : List Graph → Wire Unit
  | [] => return
  | g :: rest => do
    walk inner g
    walkMembers inner rest

/-- Start the graphs that the redirects of a node lead to. -/
def walkAttached (node : ResolvedNode) : Redirects → Wire Unit
  | ⟨stdin, stdout, stderr, _⟩ => do
    walkTarget? node.stdin stdin
    walkTarget? node.stdout stdout
    walkTarget? node.stderr stderr

/-- Start the graph that a redirect leads to. -/
def walkTarget? : Option Resolved → Option (Labelled Target) → Wire Unit
  | some ⟨_, some context⟩, some ⟨_, .graph g⟩ => walk context g
  | _, _ => return

end

/-- Close some descriptors. -/
def closeAll : List Nat → Sim Unit
  | [] => return
  | d :: rest => do
    Sim.close d
    closeAll rest

/-- Close everything that only the commands need. -/
def closeChildSide : Wire Unit := do
  let descriptors := (← Owning.own).childDescriptors
  Owning.change fun w => { w with childDescriptors := [] }
  closeAll descriptors
  let files := (← Owning.own).files
  Owning.change fun w => { w with files := [] }
  closeAll files

/-- End the processes that still run. -/
def killStarted : List (Command × Nat) → Wire Unit
  | [] => return
  | (command, pid) :: rest => do
    match ← Sim.poll pid with
    | some _ => pure ()
    | none =>
      say .warning ("Killing pid " ++ Text.ofNat pid ++ " (" ++ command.line ++ ") after failed spawn")
      Sim.kill pid
    killStarted rest

/-- Wait for every process. -/
def awaitStarted : List (Command × Nat) → Sim Unit
  | [] => return
  | (_, pid) :: rest => do
    Sim.wait pid none
    awaitStarted rest

/-- Close an end for the caller. -/
def closeEndpoint : Endpoint → Sim Unit
  | .writer w => do
    let (outcome, _) ← Writer.close.runOn w
    Sim.ofExcept outcome
  | .reader r => Pump.closeReader r

/-- Close the ends for the caller. -/
def closeEndpoints : List (Stream × Endpoint) → Sim Unit
  | [] => return
  | (_, e) :: rest => do
    closeEndpoint e
    closeEndpoints rest

/-- Give up the ends of pumps that never started. -/
def closePumps : List Pump → Sim Unit
  | [] => return
  | p :: rest => do
    let (outcome, _) ← Pump.close.runOn p
    Sim.ofExcept outcome
    closePumps rest

/-- End and await whatever was started, and give up every descriptor that is left. -/
def abort : Wire Unit := do
  let w ← Owning.own
  killStarted w.processes
  awaitStarted w.processes
  closeEndpoints w.endpoints
  Owning.change fun w => { w with endpoints := [] }
  closePumps w.pumps

/-- The writer that was made for the caller's end of stdin. -/
def writer? (w : Wiring) : Option Writer :=
  w.endpoints.findSome? fun
    | (.stdin, .writer x) => some x
    | _ => none

/-- The reader that was made for the caller's end of an output. -/
def reader? (w : Wiring) (s : Stream) : Option Reader :=
  w.endpoints.findSome? fun (t, e) =>
    match e with
    | .reader x => if t = s then some x else none
    | .writer _ => none

end Wiring

/-- The streams of which some redirects ask for an end, after others; fail at the first that was asked
for before. -/
def claimEndpoints (seen : List Stream) :
    List (Stream × Labelled Target) → Except BuildError (List Stream)
  | [] => .ok seen
  | (s, t) :: rest =>
    if t.it.isEndpoint then
      if seen.contains s then .error (.repeatedEndpoint s) else claimEndpoints (s :: seen) rest
    else claimEndpoints seen rest

/-- Go through the redirects of some nodes, after others. -/
def scanEndpoints (seen : List Stream) : List Graph → Except BuildError Unit
  | [] => .ok ()
  | .stray held :: _ => .error (.noNode held.it.typeName)
  | g :: rest => do scanEndpoints (← claimEndpoints seen g.redirects.items) rest

/-- Fail if two redirects of a graph ask for an end of the same stream. -/
def checkEndpoints (graph : Graph) : Except BuildError Unit := scanEndpoints [] graph.nodes

end Pipework
