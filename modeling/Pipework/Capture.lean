import Pipework.Engine
import Pipework.Value.Equality

/-!
# Running graphs for their output

Each helper starts a graph and carries it through to its end. Output is always read before anything is
waited for, and whatever goes wrong on the way, the processes are ended and awaited before the failure
reaches the caller.
-/

namespace Pipework.Engine

/-- A redirect to an end for the caller. -/
def endpoint : Item := Target.toItem Target.callerEnd

/-- Run a step on a handle. -/
def onHandle {σ α : Type} (h : Handle) (m : Owning Handle α) : Owning σ (Except Failure α × Handle) :=
  m.runOn h

/-- End the processes of a handle and close it, whatever could not be delivered. -/
def discard : Owning Handle Unit := do
  Handle.kill
  let _ ← Handle.close true

/-- Close a handle and fail if a command failed. -/
def finish : Owning Handle Unit := do
  let _ ← Handle.close false
  let _ ← Handle.check Handle.endless

/-- Carry a handle to its end: after a failure its processes are ended at once, else they are awaited
and checked. -/
def settleHandle {σ α : Type} (outcome : Except Failure α) (h : Handle) : Owning σ α := do
  match outcome with
  | .error e =>
    let (cleanup, _) ← discard.runOn h
    Sim.ofExcept cleanup
    throw e
  | .ok a =>
    let (ending, _) ← finish.runOn h
    Sim.ofExcept ending
    return a

/-- Start a graph with the host's streams; by default wait and check. -/
def run (graph : Item) (waits : Bool) : Owning Engine Handle := do
  let h ← spawn graph {}
  if waits then
    let (outcome, h) ← (Handle.check Handle.endless).runOn h
    let _ ← Sim.ofExcept (outcome.map fun _ => ())
    return h
  return h

/-- Everything a graph writes to stdout, with an optional input. -/
def read (graph : Item) (input : Option Item) : Owning Engine Bytes := do
  let stdin ← match input with
    | some i => pure ⟨← building Building.freshLabel, .target (.buffer i)⟩
    | none => pure Item.absent
  let h ← spawn graph { stdin, stdout := endpoint }
  let (outcome, h) ← Handle.read.runOn h
  settleHandle outcome h

/-- A content as text. No content is no text, whatever the coding, if its name can be one at all. -/
def decoded (codingName : Option Text) (output : Bytes) : Except Failure Text := do
  let name ← match codingName with
    | some name => pure name
    | none => throw .wrongType
  match Coding.named name with
  | .ok coding =>
    match coding.decode? output with
    | some t => return t
    | none => throw .decoding
  | .error (.unknownCoding name) => if output.isEmpty then return [] else throw (.unknownCoding name)
  | .error e => throw e

/-- What a graph writes to stdout as text, by default without its last line end. -/
def readText (graph : Item) (codingName : Option Text) (chomps : Bool) (input : Option Item) :
    Owning Engine Text := do
  let t ← Sim.ofExcept (decoded codingName (← read graph input))
  return if chomps then t.chomp else t

/-- Whether every command of a graph succeeds. -/
def succeeds (graph : Item) : Owning Engine Bool := do
  let h ← spawn graph {}
  let (outcome, _) ← Handle.success.runOn h
  Sim.ofExcept outcome

/-! ## Lines -/

/-- The coding of the host, for lines that are read without the name of one. -/
def hostCoding : Text := "utf-8"

/-- The most that is read at once for lines. -/
def linePiece : Nat := 8192

/-- A reading of lines from a graph's stdout: what is decoded, and the lines that were handed out, the last
one first. -/
structure LineState where
  lines : LineReader
  newestFirst : List Text := []

/-- The lines that were handed out, in order. -/
def LineState.taken (s : LineState) : List Text := s.newestFirst.reverse

/-- Hand out lines until none is left or, with a limit, so many more are out; answers whether none is
left. Each step hands out a line or takes in a piece, at most so many. -/
def takeLines (r : Reader) (keepsEnds : Bool) (limit : Option Nat) : Nat → Owning LineState Bool
  | 0 => return true
  | steps + 1 => do
    if limit = some 0 then return false
    let s ← Owning.own
    match s.lines.pop? with
    | some (line, lines) =>
      let line := if keepsEnds then line else line.chomp
      Owning.change fun s => { lines, newestFirst := line :: s.newestFirst }
      takeLines r keepsEnds (limit.map (· - 1)) steps
    | none =>
      if s.lines.ended then return true
      let piece ← r.readSome linePiece
      match s.lines.push? piece with
      | none => throw .decoding
      | some lines =>
        Owning.change fun s => { s with lines }
        takeLines r keepsEnds limit steps

/-- How much a reader can ever hand out: what its pipe holds once nobody can write to it any more. -/
def everything (r : Reader) (w : World) : Nat :=
  let (_, w) := (runUntil r.atEnd none).run w
  (r.content w).length

/-- The reader of a handle's stdout, which the handle gives away. -/
def detachOutput (h : Handle) : Option Reader × Handle := (h.stdout, { h with stdout := none })

/-- The lines of a graph's stdout, one after the other, at most so many. The graph is started by the
first. After the last line the processes are awaited and checked; where the caller stops before, or
something fails, they are ended at once, and a stop is no failure. Answers the lines that were handed out
and the failure that ended them. -/
def readLines (graph : Item) (codingName : Option Text) (keepsEnds : Bool) (limit : Option Nat) :
    Owning Engine (List Text × Option Failure) := do
  if limit = some 0 then return ([], none)
  match ← (spawn graph { stdout := endpoint }).attempt with
  | .error e => return ([], some e)
  | .ok h =>
    let (output, h) := detachOutput h
    match output, Coding.named (codingName.getD hostCoding) with
    | none, _ => return ([], some .wrongType)
    | some _, .error e =>
      let (cleanup, _) ← discard.runOn h
      match cleanup with
      | .ok () => return ([], some e)
      | .error e => return ([], some e)
    | some r, .ok c =>
      let steps := 2 * everything r (← world) + 4
      let (outcome, s) ← (takeLines r keepsEnds limit steps).runOn
        { lines := { decoder := ⟨c, .none⟩ } }
      Pump.closeReader r
      let (ending, _) ← (match outcome with
        | .ok true => finish
        | _ => discard).runOn h
      match ending, outcome with
      | .error e, _ => return (s.taken, some e)
      | .ok (), .error e => return (s.taken, some e)
      | .ok (), .ok _ => return (s.taken, none)

/-! ## Opening a graph like a file -/

/-- How a graph is opened. -/
inductive OpenMode where
  /-- The caller reads stdout. -/
  | read
  /-- The caller writes stdin. -/
  | write
  /-- The caller gets both, by the handle. -/
  | readWrite
deriving DecidableEq, Repr

/-- The mode of a word. -/
def OpenMode.ofWord? (word : Text) : Option OpenMode :=
  if word == "r" then some .read
  else if word == "w" then some .write
  else if word == "r+" then some .readWrite
  else none

/-- The mode that a value names; a value that can never name one fails in a way of its own. -/
def OpenMode.ofValue (m : Memory) (v : Value) : Except Failure OpenMode :=
  match v with
  | .str word =>
    match ofWord? word with
    | some mode => .ok mode
    | none => .error (.misuse (.invalidMode word.quoted))
  | v => .error (if v.isHashable then .misuse (.invalidMode (v.shown m)) else .wrongType)

/-- The redirects of a mode. -/
def OpenMode.redirects : OpenMode → RedirectValues
  | read => { stdout := endpoint }
  | write => { stdin := endpoint }
  | readWrite => { stdin := endpoint, stdout := endpoint }

/-- Run a block on a graph that is opened in a mode; the block shares a state with the caller. When it
ends, the ends are closed, the processes awaited and checked. When it fails, the processes are ended first,
and its failure goes on unchanged. -/
def opened {β α : Type} (graph : Item) (mode : Value) (block : OpenMode → Owning (Handle × β) α) :
    Owning (Engine × β) α := do
  let mode ← Sim.ofExcept (OpenMode.ofValue (← world).memory mode)
  let h ← Owning.onPart (·.1) (fun e s => (e, s.2)) (spawn graph mode.redirects)
  let (outcome, h, state) ← (block mode).runOn (h, (← Owning.own).2)
  Owning.change fun s => (s.1, state)
  settleHandle outcome h

end Pipework.Engine
