import Pipework.System.World
import Pipework.Text.Lines

/-!
# Running processes

A process is runnable when its time has come and its input is there: the end of its stdin, or as many
bytes as it wants. Running it takes the input, writes stdout and then stderr, and ends it unless it
hangs. To `settle` is to run, in the order of starting, whatever is runnable, until nothing is. To
`runUntil` is to settle and to move the clock to the next start, until a condition holds or time is up.
-/

namespace Pipework

namespace Part

/-- The decimal digits of a number as bytes. -/
def decimalBytes (n : Nat) : Bytes := (Text.ofNat n).toBytes

/-- The lines of a content in the order of their bytes. -/
def sortLines (b : Bytes) : Bytes :=
  ((splitAfter (· == 10) b).mergeSort fun x y => decide (x ≤ y)).flatten

/-- An input as a program shows it. -/
def viewInput (b : Bytes) : InputView → Bytes
  | .raw => b
  | .upper => b.map fun c => if 97 ≤ c && c ≤ 122 then c - 32 else c
  | .sorted => sortLines b
  | .length => decimalBytes b.length

/-- The bytes of one part, for a process and what it read. -/
def render (p : Process) (input : Bytes) : Part → Bytes
  | .bytes b => b
  | .repeated b count => (List.replicate count b).flatten
  | .input view => viewInput input view
  | .arguments separator => (p.args.drop 1).map Text.toBytes |>.intersperse separator |>.flatten
  | .variableOf name => Text.toBytes ((p.environment.get? name).getD "(unset)")
  | .directory => Text.toBytes (p.directory.getD "(none)")

end Part

namespace World

/-- Whether the input on a channel has ended: nothing more than what is there can come. -/
def atEnd (w : World) : Channel → Bool
  | .readEnd pipe => !w.hasWriter pipe
  | _ => true

/-- What a reader finds on a channel now. -/
def available (w : World) : Channel → Bytes
  | .readEnd pipe => w.content pipe
  | .file k =>
    match w.openings[k]? with
    | some o => if o.mode = .read then ((w.file? o.name).getD []).drop o.position else []
    | none => []
  | _ => []

/-- The system after a reader took some bytes from a channel. -/
def consume (w : World) (count : Nat) : Channel → World
  | .readEnd pipe => w.setContent pipe ((w.content pipe).drop count)
  | .file k =>
    { w with openings := w.openings.modify k fun o => { o with position := o.position + count } }
  | _ => w

/-- The system after a write to an opened file. -/
def writeFile (w : World) (k : Nat) (data : Bytes) : World :=
  match w.openings[k]? with
  | none => w
  | some o =>
    let content := (w.file? o.name).getD []
    match o.mode with
    | .read => w
    | .append => w.putFile o.name (content ++ data)
    | .write =>
      let w := w.putFile o.name (Memory.splice content o.position data)
      { w with openings := w.openings.set k { o with position := o.position + data.length } }

/-- The system after a write to a channel; `none` if it is a pipe that nobody can read. What cannot be
written to drops the data. -/
def deliver? (w : World) (c : Channel) (data : Bytes) : Option World :=
  if data.isEmpty then some w
  else match c with
    | .hostOutput => some { w with hostOutput := w.hostOutput ++ data }
    | .hostError => some { w with hostError := w.hostError ++ data }
    | .writeEnd pipe =>
      if w.hasReader pipe then some (w.setContent pipe (w.content pipe ++ data)) else none
    | .file k => some (w.writeFile k data)
    | .hostInput | .null | .readEnd _ => some w

/-- The system after a process ended. -/
def endProcess (w : World) (pid : Nat) (code : Int) : World :=
  (w.changeProcess pid fun p => { p with exit := some code }).emit (.exited pid code)

/-- Whether a process can run now. -/
def runnable (w : World) (p : Process) : Bool :=
  p.waiting && p.readyAt ≤ w.clock &&
    match p.program.reads with
    | .nothing => true
    | .all => w.atEnd p.stdin
    | .atMost n => w.atEnd p.stdin || n ≤ (w.available p.stdin).length

/-- How many bytes a process takes of what is there. -/
def intake (p : Process) (there : Bytes) : Nat :=
  match p.program.reads with
  | .all => there.length
  | .nothing => 0
  | .atMost n => min n there.length

/-- The code of a process that a signal ended. -/
def signalCode (signal : Nat) : Int := -(signal : Int)

/-- The system after a process ran. A write that nobody can read ends it on the spot. -/
def runProcess (w : World) (p : Process) : World :=
  let there := w.available p.stdin
  let count := intake p there
  let input := there.take count
  let w := w.consume count p.stdin
  let w := w.changeProcess p.pid fun q => { q with hasRun := true }
  match w.deliver? p.stdout (p.program.out.map (·.render p input)).flatten with
  | none => w.endProcess p.pid (signalCode Signal.brokenPipe)
  | some w =>
    match w.deliver? p.stderr (p.program.err.map (·.render p input)).flatten with
    | none => w.endProcess p.pid (signalCode Signal.brokenPipe)
    | some w => if p.program.hangs then w else w.endProcess p.pid p.program.code

/-- One walk over some processes: each one that is runnable at its turn runs. The flag says that one
did. -/
def walk (w : World) : List Nat → World × Bool
  | [] => (w, false)
  | pid :: rest =>
    match w.process? pid with
    | none => w.walk rest
    | some p =>
      if w.runnable p then
        let (w, _) := (w.runProcess p).walk rest
        (w, true)
      else w.walk rest

/-- At most so many walks, as long as they run something. -/
def settleWithin : Nat → World → World
  | 0, w => w
  | walks + 1, w =>
    let (w, progress) := w.walk (w.processes.map (·.pid))
    if progress then settleWithin walks w else w

/-- Run whatever can run. Every walk but the last runs a process that had not run before, so there are
at most as many as such processes and one more. -/
def settle (w : World) : World := settleWithin (w.processes.countP Process.waiting + 1) w

/-- The starts that are still to come. -/
def futureStarts (w : World) : List Time :=
  ((w.processes.filter Process.waiting).map (·.readyAt)).filter (w.clock < ·)

/-- At most so many moves of the clock, until the condition holds. -/
def runUntilWithin (condition : World → Bool) (deadline : Option Time) :
    Nat → World → Except Failure Bool × World
  | 0, w => (.error .deadlock, w)
  | moves + 1, w =>
    let w := w.settle
    if condition w then (.ok true, w)
    else match w.futureStarts.min?, deadline with
      | none, none => (.error .deadlock, w)
      | none, some d => (.ok false, { w with clock := d })
      | some start, some d =>
        if d < start then (.ok false, { w with clock := d })
        else runUntilWithin condition deadline moves { w with clock := start }
      | some start, none => runUntilWithin condition deadline moves { w with clock := start }

end World

/-- Let time pass until a condition holds, or until a span is over. Answers whether the condition held.
Each move of the clock starts at least one process, which bounds their number. -/
def runUntil (condition : World → Bool) (limit : Option Time) : Sim Bool := do
  let w ← world
  let (outcome, w) := World.runUntilWithin condition (limit.map (w.clock + ·))
    (w.processes.countP Process.waiting + 1) w
  setWorld w
  Sim.ofExcept outcome

/-- Let everything happen that needs no time. -/
def settle : Sim Unit := modify World.settle

end Pipework
