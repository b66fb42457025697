import Pipework.Memory
import Pipework.System.Ends

/-!
# Pumps

A pump is a background thread that moves bytes between a pipe and a buffer: it drains what a command
writes into a buffer, or feeds a command from one. It owns its end of the pipe and closes it when it is
done, in whatever way. A failure never leaves the thread: the pump keeps it, with the number of bytes
moved before.
-/

namespace Pipework

/-- Which way a pump moves bytes. -/
inductive Direction where
  /-- From the pipe into the buffer. -/
  | drain
  /-- From the buffer into the pipe. -/
  | feed
deriving DecidableEq, Repr

/-- The word for a direction. -/
def Direction.word : Direction → Text
  | drain => "drain"
  | feed => "feed"

/-- What a pump holds of its pipe. -/
inductive PumpEnd where
  /-- The thread has taken it, or it was given up. -/
  | gone
  | descriptor (n : Nat)
  | reader (r : Reader)
  | writer (w : Writer)
deriving DecidableEq, Repr

/-- How far a pump's thread is. -/
inductive ThreadState where
  | unstarted
  | running
  | finished
deriving DecidableEq, Repr

/-- How pumps work, as far as an engine sets it. -/
structure PumpSettings where
  /-- The most that is moved at once; below zero, a read has no limit, and a fixed content is not moved
  at all. Without a size a read has no limit either, and a fixed content cannot be cut. -/
  chunkSize : Option Int := some 65536
  /-- The coding of text, by name. -/
  coding : Option Text := some "utf-8"
  /-- A command that stops reading its stdin is no failure. -/
  ignoresBrokenPipe : Bool := false
deriving DecidableEq, Repr

/-- A pump. -/
structure Pump where
  direction : Direction
  pipeEnd : PumpEnd
  buffer : Buffer
  name : Text
  logger : Text
  settings : PumpSettings
  error : Option Failure := none
  moved : Nat := 0
  thread : ThreadState := .unstarted
  /-- Where decoding into a text buffer stands. -/
  decoder : Option Decoder := none

namespace Pump

/-- A pump that has not started. Without a name it is named for its direction. -/
def make (direction : Direction) (pipeEnd : PumpEnd) (buffer : Buffer) (name logger : Text)
    (settings : PumpSettings) : Pump :=
  { direction, pipeEnd, buffer, logger, settings
    name := if name.isEmpty then direction.word else name }

/-- The name of a pump's thread. -/
def threadName (p : Pump) : Text := "cmdpipe-" ++ p.direction.word ++ "-" ++ p.name

/-- Whether the thread was started and has not finished. -/
def isAlive (p : Pump) : Bool := p.thread == .running

/-- The limit of a pump's reads, where less than zero is none. -/
def readLimit (p : Pump) : Int := p.settings.chunkSize.getD (-1)

/-- The coding of a pump's text, for an operation that tells what it lacks. -/
def codingFor (operation : Text) (p : Pump) : Except Failure Coding :=
  match p.settings.coding with
  | some name => Coding.named name
  | none => .error (.mistyped (operation ++ " must be str, not None"))

/-- Change the memory by an operation that may fail. -/
def onMemory {α : Type} (f : Memory → Except Failure α × Memory) : Sim α := do
  let (outcome, memory) := f (← world).memory
  modify fun w => { w with memory }
  Sim.ofExcept outcome

/-- Count bytes as moved. -/
def count (n : Nat) : Owning Pump Unit := Owning.change fun p => { p with moved := p.moved + n }

/-! ## Draining -/

/-- The decoder of a pump, made at its first use. -/
def theDecoder : Owning Pump Decoder := do
  let p ← Owning.own
  match p.decoder with
  | some d => return d
  | none =>
    let coding ← Sim.ofExcept (p.codingFor "lookup() argument")
    return ⟨coding, .none⟩

/-- Put a chunk into the buffer. A text buffer gets what the chunk completes. -/
def writeBuffer (chunk : Bytes) : Owning Pump Unit := do
  match (← Owning.own).buffer with
  | .object ref =>
    match ref.kind with
    | .textStream | .textSink =>
      let (d, pieces) := (← theDecoder).feed chunk
      Owning.change fun p => { p with decoder := some d }
      onMemory (·.writeText ref (pieces.map Piece.replaced))
    | _ => onMemory (·.writeBytes ref chunk)
  | buffer => throw (.lacking buffer.label "write")

/-- Move at most so many chunks from a reader into the buffer, up to the end. -/
def drainLoop (r : Reader) : Nat → Owning Pump Unit
  | 0 => return
  | chunks + 1 => do
    let chunk ← r.readUpTo (← Owning.own).readLimit
    if chunk.isEmpty then return
    writeBuffer chunk
    count chunk.length
    drainLoop r chunks

/-- What an unfinished character amounts to at the end. -/
def writeTail : Owning Pump Unit := do
  let p ← Owning.own
  match p.decoder, p.buffer with
  | some d, .object ref =>
    let tail := d.finish.map Piece.replaced
    if tail.isEmpty then return
    onMemory (·.writeText ref tail)
  | _, _ => return

/-- The reader of a drain's end. -/
def readerOf : PumpEnd → Option Reader
  | .descriptor n => some ⟨n, false⟩
  | .reader r => some r
  | _ => none

/-- Give up a reader, and answer nothing. -/
def closeReader (r : Reader) : Sim Unit := do
  let (outcome, _) ← Reader.close.runOn r
  Sim.ofExcept outcome

/-- Move everything from the pipe into the buffer. The reader is closed in any case. No more can come
than the pipe holds, which bounds the number of chunks. -/
def drain (r : Reader) : Owning Pump Unit := do
  let outcome ← (drainLoop r ((r.content (← world)).length + 1)).attempt
  closeReader r
  Sim.ofExcept outcome
  writeTail

/-! ## Feeding -/

/-- A step of feeding: it owns the pump and the writer. -/
abbrev Feeding := Owning (Pump × Writer)

/-- Write a chunk and count it. -/
def writeChunk (chunk : Bytes) : Feeding Unit := do
  let _ ← Owning.onPart (·.2) (fun w s => (s.1, w)) (Writer.write chunk)
  Owning.onPart (·.1) (fun p s => (p, s.2)) (count chunk.length)

/-- Cut a content into chunks of a size; at most so many. -/
def chunksOf (size : Nat) : Nat → Bytes → List Bytes
  | 0, _ => []
  | chunks + 1, b => if b.isEmpty then [] else b.take size :: chunksOf size chunks (b.drop size)

/-- Write a whole content chunk by chunk. -/
def feedBytes (b : Bytes) : Feeding Unit := do
  match (← Owning.own).1.settings.chunkSize with
  | none => throw (.mistyped "'NoneType' object cannot be interpreted as an integer")
  | some size =>
    if size = 0 then throw (.misuse .zeroStride)
    if 0 < size then (chunksOf size.toNat b.length b).forM writeChunk

/-- The bytes of a text in the pump's coding. -/
def encoded (p : Pump) (t : Text) : Except Failure Bytes := do
  match (← p.codingFor "encode() argument 'encoding'").encode t with
  | some b => return b
  | none => throw .encoding

/-- Move chunks from an object into the pipe, at most so many, until one is empty. -/
def feedObject (ref : ObjectRef) : Nat → Feeding Unit
  | 0 => return
  | chunks + 1 => do
    let p := (← Owning.own).1
    match ← onMemory (·.readChunk ref p.readLimit) with
    | .bytes [] | .text [] => return
    | .bytes b =>
      writeChunk b
      feedObject ref chunks
    | .text t =>
      writeChunk (← Sim.ofExcept (p.encoded t))
      feedObject ref chunks

/-- Write everything that the buffer holds or hands out. -/
def feedAll : Feeding Unit := do
  let p := (← Owning.own).1
  match p.buffer with
  | .text t => feedBytes (← Sim.ofExcept (p.encoded t))
  | .bytes b | .view b => feedBytes b
  | .object ref =>
    let memory := (← world).memory
    if ref.kind = .byteArray then feedBytes (memory.bytesOf ref)
    else feedObject ref (memory.readsLeft ref + 1)
  | .unusable label => throw (.lacking label "read")

/-- The writer of a feed's end. -/
def writerOf : PumpEnd → Option Writer
  | .descriptor n => some ⟨n, [], false⟩
  | .writer w => some w
  | _ => none

/-- Move everything from the buffer into the pipe. The writer is closed in any case; a failure to
deliver what it holds comes before an earlier failure. -/
def feed (w : Writer) : Owning Pump Unit := do
  let (outcome, p, w) ← feedAll.runOn (← Owning.own, w)
  Owning.change fun _ => p
  let (closing, _) ← Writer.close.runOn w
  Sim.ofExcept closing
  Sim.ofExcept outcome

/-! ## The thread -/

/-- The failure of a pump whose end of the pipe was taken before. -/
def takenEnd : Failure := .mistyped "'NoneType' object does not support the context manager protocol"

/-- Move everything, with the end that the pump holds. -/
def move : Owning Pump Unit := do
  let p ← Owning.own
  Owning.change fun p => { p with pipeEnd := .gone }
  match p.direction with
  | .drain =>
    match readerOf p.pipeEnd with
    | some r => drain r
    | none => throw takenEnd
  | .feed =>
    match writerOf p.pipeEnd with
    | some w => feed w
    | none => throw takenEnd

/-- Write a line about a pump to the log. -/
def say (level : Level) (text : Text) : Owning Pump Unit := do
  let p ← Owning.own
  note p.logger level ("[" ++ p.name ++ "] " ++ text)

/-- Run the thread to its end. A failure is kept and logged; a command that stopped reading is neither
a failure nor an error if the pump ignores that. -/
def run : Owning Pump Unit := do
  let outcome ← move.attempt
  let p ← Owning.own
  match outcome with
  | .ok () => say .debug (p.direction.word ++ " done, " ++ Text.ofNat p.moved ++ " bytes")
  | .error e =>
    if e.isBrokenPipe then
      let text := "reader closed its end after " ++ Text.ofNat p.moved ++ " bytes"
      if p.settings.ignoresBrokenPipe then say .debug text
      else
        say .error text
        Owning.change fun p => { p with error := some e }
    else
      say .error (p.direction.word ++ " failed: " ++ e.message)
      Owning.change fun p => { p with error := some e }
  Owning.change fun p => { p with thread := .finished }

/-- Start the thread. One that feeds has all it needs and runs at once. -/
def start : Owning Pump Unit := do
  let p ← Owning.own
  emit (.threadStarted p.threadName)
  Owning.change fun p => { p with thread := .running }
  match p.direction with
  | .drain => return
  | .feed => run

/-- Whether nobody can write to a drain's pipe any more. -/
def inputEnded (p : Pump) (w : World) : Bool :=
  match readerOf p.pipeEnd with
  | some r => r.atEnd w
  | none => true

/-- Wait for the thread, at most for a span. A drain runs as soon as all it will get is there. -/
def join (limit : Option Time) : Owning Pump Unit := do
  let p ← Owning.own
  match p.thread with
  | .unstarted => return
  | .finished => emit (.joined p.threadName limit)
  | .running =>
    emit (.joined p.threadName limit)
    if ← runUntil p.inputEnded limit then run

/-- Give up the end of a pump that was never started. -/
def close : Owning Pump Unit := do
  let p ← Owning.own
  if p.thread ≠ .unstarted then return
  Owning.change fun p => { p with pipeEnd := .gone }
  match p.pipeEnd with
  | .gone => return
  | .descriptor n => Sim.close n
  | .reader r => closeReader r
  | .writer w =>
    let (outcome, _) ← Writer.close.runOn w
    Sim.ofExcept outcome

end Pump

end Pipework
