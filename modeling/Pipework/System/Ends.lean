import Pipework.System.Calls

/-!
# The caller's ends of pipes

A `Writer` holds back what is written until it is flushed; a `Reader` waits for what it is asked for.
Both own a descriptor, which closing gives up once and for all, also where the last flush fails.
-/

namespace Pipework

/-- A buffered writer into a pipe. -/
structure Writer where
  descriptor : Nat
  /-- What was written and not flushed. -/
  held : Bytes := []
  closed : Bool := false
deriving DecidableEq, Repr

/-- A reader of a pipe. -/
structure Reader where
  descriptor : Nat
  closed : Bool := false
deriving DecidableEq, Repr

/-- The pipe that a descriptor belongs to, or belonged to before it was given up. -/
def World.pipeOf? (w : World) (descriptor : Nat) : Option Nat :=
  match (w.descriptors ++ w.retired).find? (·.1 == descriptor) with
  | some (_, .readEnd pipe) => some pipe
  | some (_, .writeEnd pipe) => some pipe
  | _ => none

namespace Writer

/-- Fail if the writer is closed. -/
def checkOpen : Owning Writer Unit := do
  if (← Owning.own).closed then throw (.misuse .writeToClosed)

/-- Hold back some bytes; answers how many. -/
def write (data : Bytes) : Owning Writer Nat := do
  checkOpen
  Owning.change fun s => { s with held := s.held ++ data }
  return data.length

/-- Pass on what is held back. If nobody can read it, it stays held. -/
def passOn : Owning Writer Unit := do
  let s ← Owning.own
  if s.held.isEmpty then return
  settle
  let w ← world
  match w.deliver? ((w.channel? s.descriptor).getD .null) s.held with
  | none => throw (.system .brokenPipe)
  | some w =>
    setWorld w
    Owning.change fun s => { s with held := [] }

/-- Pass on what is held back. -/
def flush : Owning Writer Unit := do
  if (← Owning.own).closed then throw (.misuse .flushOfClosed)
  passOn

/-- Pass on what is held back and give up the descriptor, also if that failed. -/
def close : Owning Writer Unit := do
  let s ← Owning.own
  if s.closed then return
  let outcome ← passOn.attempt
  Sim.close s.descriptor
  Owning.change fun s => { s with held := [], closed := true }
  Sim.ofExcept outcome

end Writer

namespace Reader

/-- What the pipe of a reader holds. -/
def content (r : Reader) (w : World) : Bytes := ((w.pipeOf? r.descriptor).map w.content).getD []

/-- Whether nobody can write to the pipe of a reader any more. -/
def atEnd (r : Reader) (w : World) : Bool := ((w.pipeOf? r.descriptor).map (!w.hasWriter ·)).getD true

/-- Take some bytes that are there. -/
def take (r : Reader) (count : Nat) : Sim Bytes := do
  let w ← get
  let content := r.content w
  match w.pipeOf? r.descriptor with
  | some pipe => set (w.setContent pipe (content.drop count))
  | none => pure ()
  return content.take count

/-- Fail if the reader is closed. -/
def checkOpen (r : Reader) : Sim Unit := do
  if r.closed then throw (.misuse .readOfClosed)

/-- Everything up to the end. -/
def readAll (r : Reader) : Sim Bytes := do
  r.checkOpen
  let _ ← runUntil r.atEnd none
  r.take (r.content (← get)).length

/-- At least one byte, unless the end has come, and at most so many. -/
def readSome (r : Reader) (most : Nat) : Sim Bytes := do
  r.checkOpen
  let _ ← runUntil (fun w => !(r.content w).isEmpty || r.atEnd w) none
  r.take most

/-- At least one byte, unless the end has come, and at most so many; below zero means everything up to
the end. -/
def readUpTo (r : Reader) (most : Int) : Sim Bytes :=
  if most < 0 then r.readAll else r.readSome most.toNat

/-- A line with its line feed, or what is left at the end. -/
def readLine (r : Reader) : Sim Bytes := do
  r.checkOpen
  let _ ← runUntil (fun w => (r.content w).contains 10 || r.atEnd w) none
  let content := r.content (← get)
  r.take (((splitAfter (· == 10) content).head?.map List.length).getD 0)

/-- Give up the descriptor, once. -/
def close : Owning Reader Unit := do
  let s ← Owning.own
  if s.closed then return
  Owning.change fun s => { s with closed := true }
  Sim.close s.descriptor

end Reader

end Pipework
