import Pipework.Pump

/-!
# A pump on a pipe of its own

A trial puts one pump on a new pipe without any process. A pump that drains finds a content in the pipe
and nobody who writes any more; one that feeds may find that nobody reads.
-/

namespace Pipework

/-- What a trial starts from. -/
structure Trial where
  direction : Direction
  buffer : Buffer
  name : Text := []
  settings : PumpSettings := {}
  /-- What the pipe holds at first. -/
  content : Bytes := []
  /-- Nobody reads what is fed. -/
  readerGone : Bool := false
  /-- The pump gets a file object, not a descriptor. -/
  asFile : Bool := false

namespace Trial

/-- The end of the pipe that the pump gets. -/
def pumpEnd (t : Trial) (reading writing : Nat) : PumpEnd :=
  match t.direction, t.asFile with
  | .drain, false => .descriptor reading
  | .drain, true => .reader ⟨reading, false⟩
  | .feed, false => .descriptor writing
  | .feed, true => .writer ⟨writing, [], false⟩

/-- Make the pipe and the pump; answers the descriptor of the read end too. -/
def prepare (t : Trial) : Sim (Nat × Pump) := do
  let (reading, writing) ← Sim.pipe
  let w ← world
  setWorld (w.setContent ((w.pipeOf? reading).getD 0) t.content)
  if t.direction = .drain then Sim.close writing
  else if t.readerGone then Sim.close reading
  return (reading, Pump.make t.direction (t.pumpEnd reading writing) t.buffer t.name "StreamPump"
    t.settings)

/-- Perform some steps; answers after each whether the pump's thread is alive. -/
def perform : List (Owning Pump Unit) → Owning Pump (List Bool)
  | [] => return []
  | step :: rest => do
    step
    let alive := (← Owning.own).isAlive
    return alive :: (← perform rest)

/-- What is left in the pipe of a read end that is open, and how many ends write to it. -/
def left? (reading : Nat) (w : World) : Option (Bytes × Nat) := do
  let _ ← w.channel? reading
  let pipe ← w.pipeOf? reading
  return (w.content pipe, w.holders (.writeEnd pipe))

end Trial

end Pipework
