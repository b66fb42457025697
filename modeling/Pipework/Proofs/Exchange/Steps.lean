import Mathlib.Logic.Function.Basic
import Mathlib.Logic.Relation
import Pipework.Handle
import Pipework.Proofs.System.Pipes

/-!
# An exchange with running processes

While `communicate` runs, three of its own activities go on at once with everything that the processes do:
the caller reads stdout, one pump feeds stdin, and one drains stderr. `Exchange.Step` lists what each of
them can do next, so that the runs of an exchange are all the interleavings of them.

A writer passes on as much of what it holds as it likes and whenever it likes; a reader takes as much as
it likes of what is there; processes act as they like. The order is fixed only where the call itself
waits: for the end of stdout, then for the pumps, then for each process.
-/

namespace Pipework

/-- The chunks that a pump cuts a fixed content into; `none` where it fails instead. -/
def PumpSettings.cut? (settings : PumpSettings) (content : Bytes) : Option (List Bytes) :=
  match settings.chunkSize with
  | none => none
  | some size =>
    if size = 0 then none
    else if 0 < size then some (Pump.chunksOf size.toNat content.length content)
    else some []

/-- What is on its way to the processes, and what is to go there. -/
structure Outflow where
  writer : Writer
  pipe : Nat
  /-- What the caller has written. -/
  written : Bytes
  /-- What the call was given to be written after that. -/
  fed : Bytes := []
  /-- The chunks of it that have not been written yet. -/
  left : List Bytes := []
  /-- What the call was given could not be encoded or cut. -/
  failed : Bool := false
  /-- Nobody could read what the writer held at last. -/
  broken : Bool := false

/-- What came from the processes. -/
structure Inflow where
  reader : Reader
  pipe : Nat
  /-- What the caller took before the call. -/
  early : Bytes := []
  /-- What has been taken since. -/
  taken : Bytes := []

/-- How far a call of `communicate` is. -/
inductive Stage where
  | before
  /-- Without an input the caller's end of stdin is closed first. -/
  | closing
  | reading
  | joining
  | waiting (pids : List Nat)
  | returned

/-- What a caller gives to be fed. -/
inductive Input where
  | bytes (b : Bytes)
  | text (t : Text)

/-- An input as a buffer. -/
def Input.toBuffer : Input → Buffer
  | bytes b => .bytes b
  | text t => .text t

/-- The bytes of an input. A text is encoded in UTF-8, if it can be. -/
def Input.encoded? : Input → Option Bytes
  | bytes b => some b
  | text t => Coding.utf8.encode t

/-- A call that is made once in an exchange: its input, and what it has from the handle. -/
structure Exchange.Call where
  input : Option Input
  settings : PumpSettings
  pids : List Nat

/-- The bytes that a call is to feed to stdin, if its input can be encoded. -/
def Exchange.Call.encoded? (c : Exchange.Call) : Option Bytes :=
  match c.input with
  | none => some []
  | some input => input.encoded?

/-- A call passes over its input: there are no chunks of a size below zero. -/
def Exchange.Call.SkipsInput (c : Exchange.Call) : Prop :=
  c.input.isSome ∧ ∃ n < 0, c.settings.chunkSize = some n

/-- The chunks that a call feeds to stdin, if its input can be encoded and cut. -/
def Exchange.Call.chunks? (c : Exchange.Call) : Option (List Bytes) :=
  match c.input with
  | none => some []
  | some input => input.encoded?.bind c.settings.cut?

/-- The caller's ends in the middle of an exchange, and what has entered pipes since its start. -/
structure Exchange where
  world : World
  stage : Stage := .before
  outflow : Option Outflow
  inflow : Stream → Option Inflow
  entries : List (Nat × Bytes) := []

namespace Outflow

/-- The caller writes something, which the writer holds back. -/
def write (o : Outflow) (data : Bytes) : Outflow :=
  { o with writer := { o.writer with held := o.writer.held ++ data }, written := o.written ++ data }

/-- The writer has passed on all but a rest. -/
def hold (o : Outflow) (rest : Bytes) : Outflow := { o with writer := { o.writer with held := rest } }

/-- A call has chunks to write, or fails to have them. -/
def begin (o : Outflow) (chunks? : Option (List Bytes)) : Outflow :=
  { o with fed := (chunks?.getD []).flatten, left := chunks?.getD [], failed := chunks?.isNone }

/-- One chunk goes to the writer. -/
def move (o : Outflow) (chunk : Bytes) (rest : List Bytes) : Outflow :=
  { o with writer := { o.writer with held := o.writer.held ++ chunk }, left := rest }

/-- The writer is closed. -/
def close (o : Outflow) : Outflow :=
  { o with writer := { o.writer with held := [], closed := true }, left := [] }

/-- The writer is closed, and what it held is lost. -/
def lose (o : Outflow) : Outflow := { o.close with broken := true }

/-- The writer was closed, and that is told of as no failure. That nobody could read what it held hides
that the input could not be encoded or cut. -/
structure Done (settings : PumpSettings) (o : Outflow) : Prop where
  closed : o.writer.closed
  broken : o.broken → settings.ignoresBrokenPipe
  failed : o.failed → o.broken

end Outflow

namespace Inflow

/-- All that came is what the caller has before the call. -/
def begin (i : Inflow) : Inflow := { i with early := i.early ++ i.taken, taken := [] }

/-- Some bytes are taken. -/
def take (i : Inflow) (b : Bytes) : Inflow := { i with taken := i.taken ++ b }

/-- The reader is closed. -/
def close (i : Inflow) : Inflow := { i with reader := { i.reader with closed := true } }

end Inflow

namespace Stage

/-- Whether a stream is read at a stage: by the caller before the call; in the call stdout by the caller
up to its end, and stderr by the pump until it is joined. -/
def Reads : Stage → Stream → Prop
  | before, _ | reading, _ => True
  | joining, s => s = .stderr
  | closing, _ | waiting _, _ | returned, _ => False

/-- Whether stdout has been read to its end. -/
def PastReading : Stage → Prop
  | joining | waiting _ | returned => True
  | before | closing | reading => False

/-- Whether the pumps have been joined, so that nothing is read any more. -/
def PastJoining : Stage → Prop
  | waiting _ | returned => True
  | before | closing | reading | joining => False

theorem Reads.not_pastJoining {stage : Stage} {t : Stream} (reads : stage.Reads t) :
    ¬ stage.PastJoining := by
  cases stage with
  | before | reading | joining | closing => exact id
  | waiting _ | returned => cases reads

/-- The processes that have not been waited for, of some that are to be. -/
def pending (pids : List Nat) : Stage → List Nat
  | before | closing | reading | joining => pids
  | waiting rest => rest
  | returned => []

end Stage

namespace Exchange

/-- Whether a pipe belongs to one of the caller's ends. -/
def Owns (s : Exchange) (pipe : Nat) : Prop :=
  (∃ o, s.outflow = some o ∧ o.pipe = pipe) ∨ ∃ t i, s.inflow t = some i ∧ i.pipe = pipe

/-- The bytes that have entered a pipe since the start. -/
def entered (s : Exchange) (pipe : Nat) : Bytes := enteredInto pipe s.entries

/-- What can happen next, for a call that is made once. -/
inductive Step (c : Exchange.Call) (s : Exchange) : Exchange → Prop where
  /-- A process does something. -/
  | acts {w : World} {entries : List (Nat × Bytes)} (acts : s.world.Acts w entries) :
    Step c s { s with world := w, entries := s.entries ++ entries }
  /-- Something happens that has nothing to do with the caller's ends. -/
  | elsewhere {w : World} (apart : World.Elsewhere s.Owns s.world w) : Step c s { s with world := w }
  /-- The caller writes to stdin. -/
  | write {o : Outflow} (stage : s.stage = .before) (stdin : s.outflow = some o) (data : Bytes) :
    Step c s { s with outflow := some (o.write data) }
  /-- The writer passes on some of what it holds. -/
  | pass {o : Outflow} {w : World} {data rest : Bytes} (stdin : s.outflow = some o)
    (isOpen : o.writer.closed = false) (held : o.writer.held = data ++ rest)
    (delivered : s.world.deliver? (.writeEnd o.pipe) data = some w) :
    Step c s { s with
      world := w, entries := s.entries ++ [(o.pipe, data)], outflow := some (o.hold rest) }
  /-- The call begins. -/
  | call (stage : s.stage = .before) (there : c.input.isSome → s.outflow.isSome) :
    Step c s { s with
      stage := if c.input.isSome then .reading else .closing
      outflow := s.outflow.map (·.begin c.chunks?)
      inflow := fun t => (s.inflow t).map Inflow.begin }
  /-- The next chunk goes to the writer. -/
  | move {o : Outflow} {chunk : Bytes} {rest : List Bytes} (stdin : s.outflow = some o)
    (isOpen : o.writer.closed = false) (left : o.left = chunk :: rest) :
    Step c s { s with outflow := some (o.move chunk rest) }
  /-- The writer is closed when everything has been passed on. -/
  | close {o : Outflow} (stage : s.stage ≠ .before) (stdin : s.outflow = some o)
    (isOpen : o.writer.closed = false) (left : o.left = []) (held : o.writer.held = []) :
    Step c s { s with world := s.world.shut o.writer.descriptor, outflow := some o.close }
  /-- The writer is closed when nobody can read what it holds. -/
  | lose {o : Outflow} (stage : s.stage ≠ .before) (stdin : s.outflow = some o)
    (isOpen : o.writer.closed = false)
    (refused : s.world.deliver? (.writeEnd o.pipe) o.writer.held = none) :
    Step c s { s with world := s.world.shut o.writer.descriptor, outflow := some o.lose }
  /-- Without an input the reading begins when stdin is closed. -/
  | closed (stage : s.stage = .closing) (closed : ∀ o ∈ s.outflow, o.writer.closed) :
    Step c s { s with stage := .reading }
  /-- A reader takes some of what is there. -/
  | read {t : Stream} {i : Inflow} (stage : s.stage.Reads t) (there : s.inflow t = some i)
    (isOpen : i.reader.closed = false) (count : Nat) :
    Step c s { s with
      world := s.world.consume count (.readEnd i.pipe)
      inflow := Function.update s.inflow t (some (i.take ((s.world.content i.pipe).take count))) }
  /-- The caller comes to the end of stdout. -/
  | ended (stage : s.stage = .reading) (ended : ∀ i ∈ s.inflow .stdout, s.world.Ended i.pipe) :
    Step c s { s with stage := .joining }
  /-- The pump comes to the end of stderr; one that may not read anything takes that for the end. -/
  | drained {i : Inflow} (stage : s.stage = .reading ∨ s.stage = .joining)
    (there : s.inflow .stderr = some i) (isOpen : i.reader.closed = false)
    (ended : c.settings.chunkSize = some 0 ∨ s.world.Ended i.pipe) :
    Step c s { s with
      world := s.world.shut i.reader.descriptor
      inflow := Function.update s.inflow .stderr (some i.close) }
  /-- Both pumps are done, and have no failure to tell of. -/
  | joined (stage : s.stage = .joining)
    (fed : ∀ o ∈ s.outflow, o.Done c.settings)
    (drained : ∀ i ∈ s.inflow .stderr, i.reader.closed) :
    Step c s { s with stage := .waiting c.pids }
  /-- The next process is seen to have ended. -/
  | reaped {pid : Nat} {rest : List Nat} {code : Int} (stage : s.stage = .waiting (pid :: rest))
    (ended : s.world.exit? pid = some (some code)) :
    Step c s { s with world := s.world.notice pid, stage := .waiting rest }
  /-- The call returns normally. -/
  | returns (stage : s.stage = .waiting []) : Step c s { s with stage := .returned }

/-- Any interleaving. -/
abbrev Run (c : Exchange.Call) : Exchange → Exchange → Prop := Relation.ReflTransGen (Step c)

end Exchange

/-- The caller's end of an output. -/
def Handle.reader? (h : Handle) : Stream → Option Reader
  | .stdin => none
  | .stdout => h.stdout
  | .stderr => h.stderr

/-- The exchange that a handle is in before a call. What its writer holds was written before. -/
def Handle.exchange (h : Handle) (w : World) : Exchange where
  world := w
  outflow := h.stdin.map fun r =>
    { writer := r, pipe := (w.pipeOf? r.descriptor).getD 0, written := r.held }
  inflow t := (h.reader? t).map fun r => { reader := r, pipe := (w.pipeOf? r.descriptor).getD 0 }

end Pipework
