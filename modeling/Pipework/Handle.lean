import Pipework.Pump
import Pipework.Status

/-!
# Handles

A handle holds what the start of a graph left running: the processes, the pumps, and the ends of pipes
that the caller asked for. Waiting closes the caller's end of stdin first, so that commands see the end of
their input, and a failure to deliver what it held is raised only after every process has ended.
-/

namespace Pipework

/-- The running processes of a graph. -/
structure Handle where
  graph : Graph
  /-- Each command with its process, in the order of starting. -/
  processes : List (Command × Nat) := []
  pumps : List Pump := []
  stdin : Option Writer := none
  stdout : Option Reader := none
  stderr : Option Reader := none
  logger : Text := []
  settings : PumpSettings := {}
  /-- What `communicate` drained from stderr. -/
  stderrOutput : Option Bytes := none

namespace Handle

/-- The process numbers. -/
def pids (h : Handle) : List Nat := h.processes.map (·.2)

/-- The commands. -/
def commands (h : Handle) : List Command := h.processes.map (·.1)

/-- Whether the caller has an end of a stream. -/
def hasEndpoint (h : Handle) : Stream → Bool
  | .stdin => h.stdin.isSome
  | .stdout => h.stdout.isSome
  | .stderr => h.stderr.isSome

/-- The statuses as far as they are known. -/
def statusesIn (h : Handle) (w : World) : List ProcessStatus :=
  h.processes.map fun (command, pid) =>
    { job := .command command
      pid := some (pid : Int)
      code := (w.process? pid).bind (·.seen)
      ignored := command.ignoresStatus }

/-! ## Looking -/

/-- The statuses as far as they are known. -/
def statuses : Owning Handle (List ProcessStatus) := do
  return (← Owning.own).statusesIn (← world)

/-- Whether every process has ended; the first that has not ends the search. -/
def allEnded : List Nat → Sim Bool
  | [] => return true
  | pid :: rest => do
    match ← Sim.poll pid with
    | none => return false
    | some _ => allEnded rest

/-- Whether every process has ended, without waiting. -/
def poll : Owning Handle Bool := do allEnded (← Owning.own).pids

/-- Whether some process still runs. -/
def running : Owning Handle Bool := do return !(← poll)

/-- A handle as it is shown. -/
def shown : Owning Handle Text := do
  let h ← Owning.own
  let state := if ← running then "running" else "done"
  return "ExecutionHandle(" ++ Text.ofNat h.processes.length ++ " process(es), " ++ state ++ ")"

/-! ## Ends of pipes -/

/-- Write a line to the handle's log. -/
def say (level : Level) (text : Text) : Owning Handle Unit := do
  note (← Owning.own).logger level text

/-- Take the caller's end of a stream out of the handle and close it. -/
def dropEndpoint : Stream → Owning Handle Unit
  | .stdin => do
    let h ← Owning.own
    Owning.change fun h => { h with stdin := none }
    match h.stdin with
    | none => return
    | some w =>
      let (outcome, _) ← Writer.close.runOn w
      Sim.ofExcept outcome
  | .stdout => do
    let h ← Owning.own
    Owning.change fun h => { h with stdout := none }
    match h.stdout with
    | none => return
    | some r => Pump.closeReader r
  | .stderr => do
    let h ← Owning.own
    Owning.change fun h => { h with stderr := none }
    match h.stderr with
    | none => return
    | some r => Pump.closeReader r

/-- Close the caller's end of a stream. What could not be delivered is logged; unless that is ignored,
the failure is answered, to be raised when the processes have ended. -/
def closeEndpoint (s : Stream) : Owning Handle (Option Failure) := do
  match ← (dropEndpoint s).attempt with
  | .ok () => return none
  | .error e =>
    if !e.isBrokenPipe then throw e
    if (← Owning.own).settings.ignoresBrokenPipe then
      say .debug (s.text ++ " endpoint: reader already gone")
      return none
    else
      say .error (s.text ++ " endpoint: buffered data not delivered, reader already gone")
      return some e

/-! ## Waiting -/

/-- What is left of a deadline. -/
def remaining (deadline : Option Time) : Sim (Option Time) := do
  let now := (← world).clock
  return deadline.map fun d => max 0 (d - now)

/-- Wait for some processes, all by one deadline. -/
def waitAll (deadline : Option Time) : List Nat → Sim Unit
  | [] => return
  | pid :: rest => do
    Sim.wait pid (← remaining deadline)
    waitAll deadline rest

/-- Run a step on every pump, in order. -/
def onPumps (step : Owning Pump Unit) : List Pump → StateM World (Except Failure Unit × List Pump)
  | [] => return (.ok (), [])
  | p :: rest => do
    let (outcome, p) ← step.runOn p
    match outcome with
    | .error e => return (.error e, p :: rest)
    | .ok () =>
      let (outcome, rest) ← onPumps step rest
      return (outcome, p :: rest)

/-- Run a step on every pump of the handle. -/
def eachPump (step : Owning Pump Unit) : Owning Handle Unit := do
  let (outcome, pumps) ← onPumps step (← Owning.own).pumps
  Owning.change fun h => { h with pumps }
  Sim.ofExcept outcome

/-- Wait for a pump by a deadline. -/
def joinBy (deadline : Option Time) : Owning Pump Unit := do
  Pump.join (← remaining deadline)

/-- How long a caller is ready to wait: for a span, or without an end. What the caller gives may be no span
at all, which fails when the waiting starts. -/
abbrev Limit := Except Failure (Option Time)

/-- Ready to wait without an end. -/
def endless : Limit := .ok none

/-- Raise a failure, if there is one. -/
def raise? (e : Option Failure) : Sim Unit :=
  match e with
  | some e => throw e
  | none => return

/-- The first failure that a pump kept. -/
def firstError? (pumps : List Pump) : Option Failure := pumps.findSome? (·.error)

/-- The deadline of a span that starts now. -/
def deadlineOf (limit : Limit) : Sim (Option Time) := do
  let now := (← world).clock
  return (← Sim.ofExcept limit).map (now + ·)

/-- Wait until every process has ended and every pump is done, at most for a span, which they share. -/
def wait (limit : Limit) : Owning Handle (List ProcessStatus) := do
  let undelivered ← closeEndpoint .stdin
  let deadline ← deadlineOf limit
  waitAll deadline (← Owning.own).pids
  eachPump (joinBy deadline)
  raise? undelivered
  raise? (firstError? (← Owning.own).pumps)
  statuses

/-- Wait, and fail if a command failed. -/
def check (limit : Limit) : Owning Handle (List ProcessStatus) := do
  let statuses ← wait limit
  if statuses.any (·.failed) then
    let e := Failure.processes statuses
    say .info e.message
    throw e
  return statuses

/-- The codes, after waiting. -/
def exitCodes : Owning Handle (List (Option Int)) := do return (← wait endless).map (·.code)

/-- Whether no command failed, after waiting. -/
def success : Owning Handle Bool := do return !(← wait endless).any (·.failed)

/-! ## Reading and writing -/

/-- Read the caller's end of stdout to the end. -/
def read : Owning Handle Bytes := do
  match (← Owning.own).stdout with
  | none => throw (.misuse (.noEndpoint .stdout))
  | some r => r.readAll

/-- Write to the caller's end of stdin. -/
def write (data : Bytes) : Owning Handle Nat := do
  match (← Owning.own).stdin with
  | none => throw (.misuse (.noEndpoint .stdin))
  | some w =>
    let (outcome, w) ← (Writer.write data).runOn w
    Owning.change fun h => { h with stdin := some w }
    Sim.ofExcept outcome

/-- The pump that feeds the caller's end of stdin, which the handle gives away. -/
def takeFeed (input : Buffer) : Owning Handle Pump := do
  let h ← Owning.own
  match h.stdin with
  | none => throw (.misuse (.noEndpoint .stdin))
  | some w =>
    Owning.change fun h => { h with stdin := none }
    return Pump.make .feed (.writer w) input "communicate-stdin" h.logger
      { chunkSize := h.settings.chunkSize, ignoresBrokenPipe := h.settings.ignoresBrokenPipe }

/-- The pump that drains the caller's end of stderr into a new byte array, if there is such an end. -/
def takeErrors : Owning Handle (Option (Pump × ObjectRef)) := do
  let h ← Owning.own
  match h.stderr with
  | none => return none
  | some r =>
    let ref ← Pump.onMemory fun m => let (ref, m) := m.add (.byteArray []); (.ok ref, m)
    Owning.change fun h => { h with stderr := none }
    return some (Pump.make .drain (.reader r) (.object ref) "communicate-stderr" h.logger
      { chunkSize := h.settings.chunkSize }, ref)

/-- Feed stdin, read stdout and drain stderr together, then wait. -/
def communicate (input : Option Buffer) (limit : Limit) : Owning Handle (Option Bytes) := do
  let (feeds, undelivered) ← match input with
    | some buffer => pure ([← takeFeed buffer], none)
    | none => pure ([], ← closeEndpoint .stdin)
  let errors ← takeErrors
  let pumps := feeds ++ (errors.map (·.1)).toList
  let (outcome, pumps) ← onPumps Pump.start pumps
  Sim.ofExcept outcome
  let output ← match (← Owning.own).stdout with
    | some r => pure (some (← r.readAll))
    | none => pure none
  let (outcome, pumps) ← onPumps (Pump.join none) pumps
  Sim.ofExcept outcome
  match errors with
  | some (_, ref) =>
    let collected := (← world).memory.bytesOf ref
    Owning.change fun h => { h with stderrOutput := some collected }
  | none => pure ()
  raise? undelivered
  raise? (firstError? pumps)
  let _ ← wait limit
  return output

/-! ## Ending -/

/-- Do something to every process that has not ended. -/
def eachAlive (act : Nat → Sim Unit) : List Nat → Sim Unit
  | [] => return
  | pid :: rest => do
    match ← Sim.poll pid with
    | none => act pid
    | some _ => pure ()
    eachAlive act rest

/-- Ask every process to end. -/
def terminate : Owning Handle Unit := do eachAlive Sim.terminate (← Owning.own).pids

/-- End every process at once. -/
def kill : Owning Handle Unit := do eachAlive Sim.kill (← Owning.own).pids

/-- Close the caller's ends, wait for every process and every pump. Data that could not be delivered is
a failure, unless errors are to be discarded because another one is on its way. -/
def close (discardErrors : Bool) : Owning Handle (List ProcessStatus) := do
  let stdin ← closeEndpoint .stdin
  let stdout ← closeEndpoint .stdout
  let stderr ← closeEndpoint .stderr
  waitAll none (← Owning.own).pids
  eachPump (Pump.join none)
  if !discardErrors then raise? ([stdin, stdout, stderr].findSome? id)
  statuses

/-- Wait for each process by a deadline, and end at once those that pass it. -/
def waitOrKill (deadline : Time) : List Nat → Owning Handle Unit
  | [] => return
  | pid :: rest => do
    match ← Sim.attempt (do Sim.wait pid (← remaining (some deadline))) with
    | .ok () => pure ()
    | .error (.timeout ..) =>
      say .warning ("pid " ++ Text.ofNat pid ++ " ignored SIGTERM, killing")
      Sim.kill pid
      Sim.wait pid none
    | .error e => throw e
    waitOrKill deadline rest

/-- The time that processes have between the request to end and their end. -/
def gracePeriod : Time := Time.seconds 5

/-- Ask every process to end, end those at once that have not after a grace period, and close. -/
def stop (grace : Except Failure Time) : Owning Handle (List ProcessStatus) := do
  terminate
  let deadline := (← world).clock + (← Sim.ofExcept grace)
  waitOrKill deadline (← Owning.own).pids
  close false

/-- The processes that are not known to have ended, even after another look. -/
def unfinished : List Nat → Sim (List Nat)
  | [] => return []
  | pid :: rest => do
    let open? ← match ← Sim.seenCode pid with
      | some _ => pure false
      | none => pure (← Sim.poll pid).isNone
    let others ← unfinished rest
    return if open? then pid :: others else others

/-- Start a background reaper for some processes. -/
def startReaper (logger : Text) (pids : List Nat) : Sim Unit := do
  emit (.threadStarted "cmdpipe-reaper")
  modify fun w => { w with reapers := w.reapers ++ [(logger, pids)] }

/-- Let go of the handle: close the caller's ends, and leave the processes that still run to a
background reaper. -/
def abandon : Owning Handle Unit := do
  for s in Stream.all do
    let _ ← closeEndpoint s
  let h ← Owning.own
  let pids ← unfinished h.pids
  if !pids.isEmpty then
    say .warning ("Handle abandoned with " ++ Text.ofNat pids.length
      ++ " running process(es), reaping in background")
    startReaper h.logger pids

/-- Run a block that shares a state with the caller, and close the handle however it ends. -/
def closing {β α : Type} (block : Owning (Handle × β) α) : Owning (Handle × β) α := do
  let outcome ← block.attempt
  let failed := match outcome with
    | .ok _ => false
    | .error _ => true
  let _ ← Owning.onPart (·.1) (fun h s => (h, s.2)) (close failed)
  Sim.ofExcept outcome

end Handle

/-- Wait for the processes of one reaper. -/
def reapOne (logger : Text) : List Nat → Sim Unit
  | [] => return
  | pid :: rest => do
    Sim.wait pid none
    let code := (← Sim.seenCode pid).getD 0
    let signal := if code < 0 then some (-code) else none
    note logger .debug ("Reaped abandoned pid " ++ Text.ofNat pid ++ " ("
      ++ describeExit (some code) signal ++ ")")
    reapOne logger rest

/-- Run some reapers, in order. -/
def reapEach : List (Text × List Nat) → Sim Unit
  | [] => return
  | (logger, pids) :: rest => do
    reapOne logger pids
    reapEach rest

/-- Run every reaper that is pending, in the order of their start; answers how many there were. -/
def reap : Sim Nat := do
  let pending := (← world).reapers
  modify fun w => { w with reapers := [] }
  reapEach pending
  return pending.length

end Pipework
