import Pipework.Capture
import Pipework.Value.Equality

/-!
# Blocks of actions

What a caller does with an opened graph, as data. An action is one call on the reader of stdout, on the
writer of stdin, or on the whole handle; on a handle it may name one of its streams instead. A block
performs its actions in order and ends at the first failure, unless the action catches its failure and
takes it for the answer. The answers that were given stay, also when the block fails.
-/

namespace Pipework

/-- What a block acts on. -/
inductive Subject where
  | reader
  | writer
  | handle
deriving DecidableEq, Repr

/-- One call of a caller. -/
inductive Call where
  /-- Read everything, or at most so many bytes. -/
  | read (most : Option Int)
  | readLine
  | write (data : Value)
  | flush
  | close
  | communicate
  /-- Ask whether the subject is closed. -/
  | isClosed
  /-- Ask whether the subject is absent. -/
  | isAbsent
  /-- Fail with an error of the caller's own. -/
  | raise (e : Failure)

/-- The name of a call. -/
def Call.name : Call → Text
  | read _ => "read"
  | readLine => "readline"
  | write _ => "write"
  | flush => "flush"
  | close => "close"
  | communicate => "communicate"
  | isClosed => "closed"
  | isAbsent => "none"
  | raise _ => "raise"

/-- A call, the stream of the handle that it is made on, and whether its failure is caught. -/
structure Action where
  call : Call
  stream : Option Stream := none
  catches : Bool := false

/-- What a call answers. -/
inductive Answer where
  | nothing
  | flag (b : Bool)
  | count (n : Nat)
  | content (b : Bytes)
  | statuses (l : List ProcessStatus)
  | caught (e : Failure)

/-- A block owns the handle and its answers so far. -/
abbrev Block := Owning (Handle × List Answer)

namespace Subject

/-- The type name of a subject. -/
def label : Subject → Text
  | reader => "Reader"
  | writer => "Writer"
  | handle => "ExecutionHandle"

/-- The subject that a way of opening gives. -/
def ofMode : Engine.OpenMode → Subject
  | .read => reader
  | .write => writer
  | .readWrite => handle

end Subject

namespace Block

/-- Run a step on the handle. -/
def onHandle {α : Type} (m : Owning Handle α) : Block α :=
  Owning.onPart (·.1) (fun h s => (h, s.2)) m

/-- The bytes that a value writes. -/
def dataOf (v : Value) : Sim Bytes := do
  match v.content? (← world).memory with
  | some b => return b
  | none => throw .wrongType

/-- A call on a reader. -/
def onReader (call : Call) : Owning Reader Answer := do
  let r ← Owning.own
  match call with
  | .read (some n) => return .content (← r.readUpTo n)
  | .read none => return .content (← r.readAll)
  | .readLine => return .content (← r.readLine)
  | .isClosed => return .flag r.closed
  | .flush => return .nothing
  | .close =>
    Reader.close
    return .nothing
  | call => throw (.lacking Subject.reader.label call.name)

/-- Write a value. Whether the writer is open is asked first. -/
def writeValue (v : Value) : Owning Writer Answer := do
  Writer.checkOpen
  return .count (← Writer.write (← dataOf v))

/-- A call on a writer. -/
def onWriter (call : Call) : Owning Writer Answer := do
  match call with
  | .write v => writeValue v
  | .flush =>
    Writer.flush
    return .nothing
  | .close =>
    Writer.close
    return .nothing
  | .isClosed => return .flag (← Owning.own).closed
  | call => throw (.lacking Subject.writer.label call.name)

/-- A call on the handle itself. -/
def onWhole (call : Call) : Owning Handle Answer := do
  match call with
  | .read none => return .content (← Handle.read)
  | .read (some _) => throw .wrongType
  | .write v =>
    match (← Owning.own).stdin with
    | none => throw (.misuse (.noEndpoint .stdin))
    | some w =>
      if w.closed then throw (.misuse .writeToClosed)
      return .count (← Handle.write (← dataOf v))
  | .close => return .statuses (← Handle.close false)
  | .communicate =>
    match ← Handle.communicate none Handle.endless with
    | some b => return .content b
    | none => return .nothing
  | call => throw (.lacking Subject.handle.label call.name)

/-- A call on an end that the handle may lack. -/
def onEnd {σ : Type} (get : Handle → Option σ) (put : σ → Handle → Handle) (m : Owning σ Answer)
    (call : Call) : Owning Handle Answer := do
  match get (← Owning.own) with
  | none => throw (.lacking "NoneType" call.name)
  | some s =>
    let (outcome, s) ← m.runOn s
    Owning.change (put s)
    Sim.ofExcept outcome

/-- A call on one of the handle's streams. -/
def onStream (s : Stream) (call : Call) : Owning Handle Answer :=
  match s with
  | .stdin => onEnd (·.stdin) (fun w h => { h with stdin := some w }) (onWriter call) call
  | .stdout => onEnd (·.stdout) (fun r h => { h with stdout := some r }) (onReader call) call
  | .stderr => onEnd (·.stderr) (fun r h => { h with stderr := some r }) (onReader call) call

/-- Perform one call. A reader and a writer have no streams of their own. -/
def perform (subject : Subject) (stream : Option Stream) (call : Call) : Owning Handle Answer := do
  match call, subject, stream with
  | .raise e, _, _ => throw e
  | .isAbsent, .handle, some s => return .flag (!(← Owning.own).hasEndpoint s)
  | .isAbsent, _, none => return .flag false
  | call, .handle, none => onWhole call
  | call, .handle, some s => onStream s call
  | call, .reader, none => onStream .stdout call
  | call, .writer, none => onStream .stdin call
  | _, subject, some s => throw (.lacking subject.label s.text)

/-- Give an answer. -/
def give (a : Answer) : Block Unit := Owning.change fun (h, answers) => (h, answers ++ [a])

/-- Perform some actions in order. -/
def run (subject : Subject) : List Action → Block Unit
  | [] => return
  | a :: rest => do
    let outcome ← (onHandle (perform subject a.stream a.call)).attempt
    match outcome with
    | .ok answer => give answer
    | .error e => if a.catches then give (.caught e) else throw e
    run subject rest

/-- Open a graph and run a block on what that gives: the subject, and the answers. Without them the graph
was never opened. -/
def onOpened (graph : Item) (mode : Value) (actions : List Action) :
    Owning (Engine × Option (Subject × List Answer)) Unit :=
  Engine.opened graph mode fun mode => do
    let subject := Subject.ofMode mode
    let (outcome, h, answers) ← (run subject actions).runOn ((← Owning.own).1, [])
    Owning.change fun _ => (h, some (subject, answers))
    Sim.ofExcept outcome

end Block

end Pipework
