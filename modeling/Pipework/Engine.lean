import Pipework.Handle
import Pipework.Text.Basic
import Pipework.Wiring

/-!
# Engines

An engine starts graphs. It carries what all its commands share: working directory, environment, the
settings of pumps, and a count of what it did. Either every command of a graph is started, or none is left
running: if one cannot be started, all are still tried, then those that run are ended, and one failure
names every command that could not be started.
-/

/-!
## Normal form of a path

A path is cut at its slashes; empty parts and single dots are dropped, double dots are kept. One slash
in front, or three and more, make it absolute; exactly two are kept as two. A path with no parts is a
single dot, or its root.
-/

namespace Pipework.Path

/-- The slash. -/
def slash : Rune := .char '/'

/-- The parts between slashes. -/
def parts (t : Text) : List Text :=
  (t.foldr (fun r (acc : Text × List Text) =>
    if r = slash then ([], acc.1 :: acc.2) else (r :: acc.1, acc.2)) ([], []) |>
    fun (first, rest) => first :: rest)

/-- The root that a path starts from. -/
def root (t : Text) : Text :=
  match (t.takeWhile (· = slash)).length with
  | 0 => []
  | 2 => [slash, slash]
  | _ => [slash]

/-- The normal form of a path. -/
def normalize (t : Text) : Text :=
  let kept := (parts t).filter fun part => !part.isEmpty && part != [.char '.']
  let body := root t ++ Text.join [slash] kept
  if body.isEmpty then [.char '.'] else body

end Pipework.Path

/-! ## Starting graphs -/

namespace Pipework

/-- What an engine did so far. -/
structure Stats where
  graphs : Nat := 0
  processes : Nat := 0
  spawnFailures : Nat := 0
deriving DecidableEq, Repr

/-- An engine. -/
structure Engine where
  settings : StartSettings := {}
  stats : Stats := {}
deriving DecidableEq, Repr

namespace Engine

/-- The environment of commands: the host's with variables put over it, or the variables alone. A
variable without a value is removed. -/
def overlay (memory : Memory) (base : Environment) : List (Text × Value) → Environment
  | [] => base
  | (name, .none) :: rest => overlay memory (base.erase name) rest
  | (name, v) :: rest =>
    let value := match v with
      | .path t => t
      | .bytePath b => Text.ofBytes b
      | v => v.text memory
    overlay memory (base.put name value) rest

/-- The working directory of a value; `none` stands for the host's. -/
def directoryOf : Value → Except Failure (Option Text)
  | .none => .ok none
  | .str t => .ok (some (Path.normalize t))
  | .path t => .ok (some (Path.normalize t))
  | _ => .error .wrongType

/-- The options of a new engine. -/
structure Options where
  directory : Value := .none
  overrides : Option (List (Text × Value)) := none
  inheritsEnvironment : Bool := true
  pumps : PumpSettings := {}

/-- A new engine. Without variables of its own it leaves the environment to the system. -/
def create (o : Options) : Sim Engine := do
  let directory ← Sim.ofExcept (directoryOf o.directory)
  let w ← world
  let environment :=
    if o.overrides.isNone && o.inheritsEnvironment then none
    else some (overlay w.memory (if o.inheritsEnvironment then w.environment else [])
      (o.overrides.getD []))
  return { settings := { directory, environment, pumps := o.pumps } }

/-- An engine as it is shown. -/
def shown (e : Engine) : Text :=
  "ExecutionEngine(working_dir="
    ++ (match e.settings.directory with
      | some d => d.quoted
      | none => "None" : Text) ++ ")"

/-- Count from zero again. -/
def resetStats (e : Engine) : Engine := { e with stats := {} }

/-- Run a step of building. -/
def building {α : Type} (b : Building α) : Sim α := do
  match b.run (← world).nextNumber with
  | .ok (a, nextNumber) =>
    modify fun w => { w with nextNumber }
    return a
  | .error e => throw (e.failure (← world).memory)

/-- Give up a wiring after a failure. -/
def giveUp (w : Wiring) : Sim Wiring := do
  let (outcome, w) ← (do Wiring.closeChildSide; Wiring.abort : Wire Unit).runOn w
  Sim.ofExcept outcome
  return w

/-- Start the commands of a graph that is redirected and checked already. -/
def wire (settings : StartSettings) (graph : Graph) : Sim Wiring := do
  let (outcome, w) ← (Wiring.walk {} graph).runOn { settings }
  match outcome with
  | .error e =>
    let _ ← giveUp w
    throw e
  | .ok () =>
    let (outcome, w) ← Wiring.closeChildSide.runOn w
    Sim.ofExcept outcome
    return w

/-- Start every command of a graph, with redirects for this start alone. -/
def spawn (graph : Item) (values : RedirectValues) : Owning Engine Handle := do
  let graph ← building (Graph.redirect graph values false)
  Sim.ofExcept (BuildError.report (← world).memory (checkEndpoints graph))
  let settings := (← Owning.own).settings
  let w ← wire settings graph
  if !w.failures.isEmpty then
    Owning.change fun e =>
      { e with stats := { e.stats with spawnFailures := e.stats.spawnFailures + w.failures.length } }
    let (outcome, _) ← Wiring.abort.runOn w
    Sim.ofExcept outcome
    let e := Failure.spawn w.failures
    note settings.logger .error e.message
    throw e
  let (outcome, pumps) ← Handle.onPumps Pump.start w.pumps
  Sim.ofExcept outcome
  Owning.change fun e =>
    { e with stats := { e.stats with
        graphs := e.stats.graphs + 1
        processes := e.stats.processes + w.processes.length } }
  note settings.logger .info
    ("Spawned " ++ Text.ofNat w.processes.length ++ " process(es) for "
      ++ graph.shown (← world).memory)
  return {
    graph, pumps
    processes := w.processes
    stdin := w.writer?
    stdout := w.reader? .stdout
    stderr := w.reader? .stderr
    logger := settings.logger
    settings := settings.pumps }

end Engine

end Pipework
