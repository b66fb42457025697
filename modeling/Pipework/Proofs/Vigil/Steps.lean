import Pipework.Proofs.Exchange.Steps
import Pipework.Proofs.Pump.Starting

/-!
# Waiting for pumps

While a caller waits, the threads of the pumps go on at once with everything that the processes do. A thread
is taken step by step (`Strand.Step`), and between any two of its steps the others may take some
(`Vigil.Step`), so that the runs are all the schedules.

To be waited for and to have finished are two things: a wait with a limit goes on to the next pump when its
time is over, whether the thread has finished or not.
-/

namespace Pipework

/-- The content of the byte array with a number. -/
def Memory.array? (m : Memory) (id : Nat) : Option Bytes :=
  match m.cells[id]? with
  | some (.byteArray b) => some b
  | _ => none

/-- What a drain has put into its buffer at once, and the pipe that it comes from. -/
structure Put where
  pipe : Nat
  buffer : Buffer
  chunk : Bytes

/-- What has been put into buffers out of a pipe, in order. -/
def drawnFrom (pipe : Nat) (puts : List Put) : Bytes :=
  puts.flatMap fun x => if x.pipe = pipe then x.chunk else []

/-- What has been put into the object with a number, in order. -/
def putInto (id : Nat) (puts : List Put) : Bytes :=
  puts.flatMap fun x => match x.buffer with
    | .object ref => if ref.id = id then x.chunk else []
    | _ => []

/-- What the thread of a pump is at. -/
inductive Task where
  /-- A feed writes, in whatever way, until it has finished. -/
  | feeding
  | reading
  /-- It has read something, and is to put it into the buffer. -/
  | putting (chunk : Bytes)
  /-- It has come to an end of its reading and is to give up the reader. -/
  | closing (outcome : Except Failure Unit)
  /-- It is to put the rest of a text into the buffer. -/
  | ending (outcome : Except Failure Unit)
  | done (outcome : Except Failure Unit)

/-- A pump with its thread, and what comes to it if it drains. -/
structure Strand where
  pump : Pump
  task : Task
  inflow : Option Inflow

/-- A pump as it is after its start. One that has no reader feeds, and its thread may still be at work. -/
def Pump.strand (p : Pump) (w : World) : Strand :=
  match readerOf p.pipeEnd with
  | some r =>
    { pump := { p with pipeEnd := .gone }
      task := .reading
      inflow := some { reader := r, pipe := (w.pipeOf? r.descriptor).getD 0 } }
  | none => { pump := p, task := .feeding, inflow := none }

namespace Strand

variable (w : World) (t : Strand)

/-- What the thread of a pump can do next, and what it puts into its buffer by that. -/
inductive Step : World → Strand → List Put → Prop where
  /-- A feed comes to its end. What it did until then happened elsewhere. -/
  | feeds (task : t.task = .feeding) (outcome : Except Failure Unit) (moved : Nat) :
    Step w
      { t with
        pump := { t.pump with error := t.pump.verdict outcome, moved, thread := .finished }
        task := .done outcome } []
  | reads {i : Inflow} (task : t.task = .reading) (there : t.inflow = some i)
    (isOpen : i.reader.closed = false) (count : Nat) (any : (w.content i.pipe).take count ≠ []) :
    Step (w.consume count (.readEnd i.pipe))
      { t with
        task := .putting ((w.content i.pipe).take count)
        inflow := some (i.take ((w.content i.pipe).take count)) } []
  /-- The reading fails. -/
  | fails (task : t.task = .reading) (e : Failure) : Step w { t with task := .closing (.error e) } []
  /-- Nothing comes any more; a pump that may not read anything takes that for the end. -/
  | ends {i : Inflow} (task : t.task = .reading) (there : t.inflow = some i)
    (ended : t.pump.settings.chunkSize = some 0 ∨ w.Ended i.pipe) :
    Step w { t with task := .closing (.ok ()) } []
  /-- The buffer takes what was read. -/
  | puts {i : Inflow} {chunk : Bytes} {p : Pump} {w' : World} (task : t.task = .putting chunk)
    (there : t.inflow = some i) (taken : (Pump.writeBuffer chunk).exec t.pump w = (.ok (), p, w')) :
    Step w' { t with pump := { p with moved := p.moved + chunk.length }, task := .reading }
      [⟨i.pipe, t.pump.buffer, chunk⟩]
  /-- The buffer refuses it. -/
  | refused {chunk : Bytes} {e : Failure} {p : Pump} {w' : World} (task : t.task = .putting chunk)
    (refused : (Pump.writeBuffer chunk).exec t.pump w = (.error e, p, w')) :
    Step w' { t with pump := p, task := .closing (.error e) } []
  | closes {i : Inflow} {outcome closing : Except Failure Unit} {w' : World}
    (task : t.task = .closing outcome) (there : t.inflow = some i)
    (closed : (Pump.closeReader i.reader).exec w = (closing, w')) :
    Step w' { t with task := .ending (do closing; outcome), inflow := some i.close } []
  /-- The thread finishes. A failure is kept, unless it is one that the pump ignores. -/
  | finishes {outcome last : Except Failure Unit} {p : Pump} {w' : World}
    (task : t.task = .ending outcome)
    (ended : (do Sim.ofExcept outcome; Pump.writeTail : Owning Pump Unit).exec t.pump w = (last, p, w')) :
    Step w'
      { t with
        pump := { p with error := p.verdict last, thread := .finished }
        task := .done last } []

/-- What stays the same about a pump while it works: the pipe that it drains, and its buffer. -/
def ends : Option Nat × Buffer := (t.inflow.map Inflow.pipe, t.pump.buffer)

end Strand

namespace Vigil

/-- How far a wait is. -/
inductive Stage where
  /-- No wait is on. -/
  | before
  /-- Some processes are to be waited for. -/
  | awaiting (pids : List Nat)
  /-- The pump with a number is to be waited for. -/
  | joining (number : Nat)
  | returned

namespace Stage

/-- The processes that have not been waited for, of some that are to be. -/
def pending (pids : List Nat) : Stage → List Nat
  | before => pids
  | awaiting rest => rest
  | joining _ | returned => []

/-- Whether the pump with a number has been waited for. -/
def Past (number : Nat) : Stage → Prop
  | before | awaiting _ => False
  | joining next => number < next
  | returned => True

/-- Whether no wait is on. -/
def Idle : Stage → Prop
  | before | returned => True
  | awaiting _ | joining _ => False

end Stage

end Vigil

/-- The pumps of a handle at work, and a caller who waits for them and for the processes; what has entered
pipes, and what has been put into buffers, since the start. -/
structure Vigil where
  world : World
  pids : List Nat
  strands : List Strand
  stage : Vigil.Stage := .before
  /-- Whether the wait has a limit. -/
  limited : Bool := false
  /-- The pumps that had not finished when the time for them was over, by their numbers. -/
  late : List Nat := []
  entries : List (Nat × Bytes) := []
  puts : List Put := []

namespace Vigil

/-- A pipe that some pump drains. -/
def Owns (v : Vigil) (pipe : Nat) : Prop := ∃ x ∈ v.strands.map Strand.ends, x.1 = some pipe

/-- An object that some pump drains into. -/
def Fills (v : Vigil) (id : Nat) : Prop :=
  ∃ x ∈ v.strands.map Strand.ends, x.1.isSome ∧ ∃ ref, x.2 = .object ref ∧ ref.id = id

/-- The bytes that have entered a pipe since the start. -/
def entered (v : Vigil) (pipe : Nat) : Bytes := enteredInto pipe v.entries

/-- What can happen next. A caller may wait again, also after a wait that failed. -/
inductive Step (v : Vigil) : Vigil → Prop where
  /-- A process does something. -/
  | acts {w : World} {entries : List (Nat × Bytes)} (acts : v.world.Acts w entries) :
    Step v { v with world := w, entries := v.entries ++ entries }
  /-- Something happens that has nothing to do with the drains: a feed writes, or the caller uses its ends.
  Nobody else changes a byte array that is drained into. -/
  | elsewhere {w : World} (apart : World.Elsewhere v.Owns v.world w)
    (untouched : ∀ id, v.Fills id → w.memory.array? id = v.world.memory.array? id) :
    Step v { v with world := w }
  /-- The thread of a pump does something. -/
  | thread {number : Nat} {t t' : Strand} {w : World} {puts : List Put}
    (there : v.strands[number]? = some t) (step : t.Step v.world w t' puts) :
    Step v { v with world := w, strands := v.strands.set number t', puts := v.puts ++ puts }
  /-- A wait begins. -/
  | calls (idle : v.stage.Idle) (limited : Bool) :
    Step v { v with stage := .awaiting v.pids, limited, late := [] }
  /-- The next process is seen to have ended. -/
  | reaped {pid : Nat} {rest : List Nat} {code : Int} (stage : v.stage = .awaiting (pid :: rest))
    (ended : v.world.exit? pid = some (some code)) :
    Step v { v with world := v.world.notice pid, stage := .awaiting rest }
  /-- After the processes come the pumps. -/
  | turns (stage : v.stage = .awaiting []) : Step v { v with stage := .joining 0 }
  /-- The next pump has finished. -/
  | joined {number : Nat} {t : Strand} {outcome : Except Failure Unit} (stage : v.stage = .joining number)
    (there : v.strands[number]? = some t) (finished : t.task = .done outcome) :
    Step v { v with stage := .joining (number + 1) }
  /-- Time is over for the next pump, which is left behind. -/
  | passes {number : Nat} (stage : v.stage = .joining number) (there : number < v.strands.length)
    (limited : v.limited) :
    Step v { v with stage := .joining (number + 1), late := v.late ++ [number] }
  /-- The wait returns normally: no pump has a failure to tell of. -/
  | returns (stage : v.stage = .joining v.strands.length) (quiet : ∀ t ∈ v.strands, t.pump.error = none) :
    Step v { v with stage := .returned }
  /-- The wait fails. -/
  | raises (busy : ¬ v.stage.Idle) : Step v { v with stage := .before }

/-- Any schedule. -/
abbrev Run : Vigil → Vigil → Prop := Relation.ReflTransGen Step

/-- What can happen next while nobody but the threads changes an object that is drained into. -/
def Guarded (v v' : Vigil) : Prop :=
  v.Step v' ∧ (v'.strands = v.strands → ∀ ref : ObjectRef, v.Fills ref.id →
    v'.world.memory.get? ref = v.world.memory.get? ref)

/-- Any such schedule. -/
abbrev GuardedRun : Vigil → Vigil → Prop := Relation.ReflTransGen Guarded

end Vigil

/-- A handle whose pumps have been started, in some world. -/
def Handle.vigil (h : Handle) (w : World) : Vigil where
  world := w
  pids := h.pids
  strands := h.pumps.map (·.strand w)

end Pipework
