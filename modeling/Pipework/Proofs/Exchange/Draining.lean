import Pipework.Proofs.Exchange.Lossless
import Pipework.Proofs.Exchange.Reaching

/-!
# Pumps that drain, in an exchange

A pump that drains runs when it is waited for, and only when nobody writes to its pipe any more. The one
that was started for stderr reads chunk by chunk to the end and closes its end (`Reaches.drains`). The
handle's own pumps drain other pipes, and whatever they do on the way is no concern of the exchange
(`Reaches.joinAll`).

Both rest on what a drain can change at all (`Pump.Drainable`).
-/

namespace Pipework

variable {c : Exchange.Call} {s : Exchange} {w w' : World} {stage : Stage} {out : Option Outflow}
  {inn : Stream → Option Inflow}

/-! ## What a drain may change -/

namespace Reader

variable {r : Reader}

section Preserves

variable {P : World → Prop} (plays : ∀ w w' entries, w.Plays w' entries → P w → P w')
  (taken : r.closed = false → ∀ w pipe count, w.pipeOf? r.descriptor = some pipe → P w →
    P (w.consume count (.readEnd pipe)))
include plays taken

/-- To read is to look whether the reader is open, to let the processes act, and to take something. -/
theorem preserves_reading (condition : World → Bool) (count : World → Nat) :
    (do r.checkOpen; let _ ← runUntil condition none; r.take (count (← get)) : Sim Bytes).Preserves P := by
  cases isOpen : r.closed with
  | true =>
    intro w holds
    rw [Sim.exec_bind, exec_checkOpen_of_closed isOpen]
    exact holds
  | false =>
    have checked : r.checkOpen.Preserves P := by
      rw [checkOpen, if_neg (by simp [isOpen])]
      exact .pure _
    have waited : (runUntil condition none).Preserves P := by
      intro w holds
      obtain ⟨_, _, _, ran, played, -⟩ := Sim.exec_runUntil condition none w
      rw [ran]
      exact plays w _ _ played holds
    refine .bind checked fun _ => .bind waited fun _ => .bind .get fun w₀ => ?_
    intro w holds
    cases leads : w.pipeOf? r.descriptor with
    | none =>
      simp only [take, Sim.exec_bind, Sim.exec_get, leads]
      exact holds
    | some pipe =>
      rw [exec_take leads]
      exact taken isOpen w pipe _ leads holds

/-- Reading lets the processes act and takes something. -/
theorem preserves_readUpTo (most : Int) : (r.readUpTo most).Preserves P := by
  unfold readUpTo
  split
  · exact preserves_reading plays taken _ _
  · exact preserves_reading plays taken _ fun _ => most.toNat

theorem preserves_readLine : r.readLine.Preserves P := preserves_reading plays taken _ _

end Preserves

end Reader

namespace Pump

variable {r : Reader} {P : Pump → World → Prop}

/-- A reader gives up its descriptor, unless it was closed before, or somebody else gave the descriptor
up. -/
theorem closeReader_cases (r : Reader) (w : World) :
    r.closed = true ∧ (closeReader r).exec w = (.ok (), w) ∨
      (closeReader r).exec w = (.ok (), w.shut r.descriptor) ∨
      (closeReader r).exec w = (.error (.system .badDescriptor), w) := by
  have run : (closeReader r).exec w = ((Reader.close.exec r w).1, (Reader.close.exec r w).2.2) := rfl
  rw [run]
  unfold Reader.close
  rw [Owning.exec_bind, Owning.exec_own]
  dsimp only
  split
  · next isClosed => exact .inl ⟨isClosed, rfl⟩
  · right
    rw [Owning.exec_bind, Owning.exec_change]
    dsimp only
    by_cases isOpen : r.descriptor ∈ w.descriptors.map (·.1)
    · rw [Owning.exec_lift, Sim.exec_close isOpen]
      exact .inl rfl
    · rw [Owning.exec_lift, Sim.exec_close_of_not_open isOpen]
      exact .inr rfl

/-- What is left of an unfinished character goes into the buffer, which is in the memory. -/
theorem exec_writeTail (p : Pump) (w : World) :
    ∃ outcome memory, writeTail.exec p w = (outcome, p, { w with memory }) := by
  unfold writeTail
  rw [Owning.exec_bind, Owning.exec_own]
  dsimp only
  split
  · split
    · exact ⟨.ok (), w.memory, rfl⟩
    · rw [Owning.exec_lift, exec_onMemory]
      exact ⟨_, _, rfl⟩
  · exact ⟨.ok (), w.memory, rfl⟩

/-- What does not depend on anything that writing into a buffer may change: how far the pump is, the memory and the
log. -/
structure Fillable (P : Pump → World → Prop) : Prop where
  moves : ∀ p w decoder moved, P p w → P { p with decoder, moved } w
  aside : ∀ p w memory log, P p w → P p { w with memory, log }

/-- What does not depend on anything that reading into a buffer may change either: neither on what processes do, nor on
what an open reader takes out of its pipe. -/
structure Readable (r : Reader) (P : Pump → World → Prop) : Prop extends Fillable P where
  plays : ∀ p w w' entries, w.Plays w' entries → P p w → P p w'
  take : r.closed = false → ∀ p w pipe count, w.pipeOf? r.descriptor = some pipe → P p w →
    P p (w.consume count (.readEnd pipe))

/-- What does not depend on anything that waiting for a drain may change: neither on how the pump stands, nor
on the descriptor of the reader. -/
structure Drainable (r : Reader) (P : Pump → World → Prop) : Prop extends Readable r P where
  stands : ∀ p w pipeEnd error thread, P p w → P { p with pipeEnd, error, thread } w
  joined : ∀ p w name limit, P p w → P p (w.emit (.joined name limit))
  shut : ∀ p w, P p w → P p (w.shut r.descriptor)

namespace Fillable

theorem onMemory {α : Type} (fillable : Fillable P) (f : Memory → Except Failure α × Memory) :
    (liftM (Pump.onMemory f) : Owning Pump α).Preserves P :=
  .lift fun p w holds => by
    rw [exec_onMemory]
    exact fillable.aside p w _ _ holds

theorem writeBuffer (fillable : Fillable P) (chunk : Bytes) : (Pump.writeBuffer chunk).Preserves P := by
  have theDecoder : Pump.theDecoder.Preserves P := by
    refine .bind .own fun p => ?_
    split
    · exact .pure _
    · exact .bind (.lift fun _ => .ofExcept _) fun _ => .pure _
  refine .bind .own fun p => ?_
  split
  · split
    · exact .bind theDecoder fun _ =>
        .bind (.change fun p w holds => fillable.moves p w _ _ holds) fun _ => fillable.onMemory _
    · exact .bind theDecoder fun _ =>
        .bind (.change fun p w holds => fillable.moves p w _ _ holds) fun _ => fillable.onMemory _
    · exact fillable.onMemory _
  · exact .throw _

/-- The loop changes no more than its reads do. -/
theorem drainLoop (fillable : Fillable P) (reads : ∀ most p, (r.readUpTo most).Preserves (P p)) (chunks : Nat) :
    (Pump.drainLoop r chunks).Preserves P := by
  induction chunks with
  | zero => exact .pure ()
  | succ chunks ih =>
    refine .bind .own fun p => .bind (.lift fun q => reads _ q) fun chunk => ?_
    split
    · exact .pure ()
    · exact .bind (fillable.writeBuffer chunk) fun _ =>
        .bind (.change fun p w holds => fillable.moves p w _ _ holds) fun _ => ih

theorem writeTail (fillable : Fillable P) : Pump.writeTail.Preserves P := by
  intro p w holds
  obtain ⟨_, _, written⟩ := exec_writeTail p w
  rw [written]
  exact fillable.aside p w _ _ holds

end Fillable

namespace Readable

theorem readUpTo (readable : Readable r P) (most : Int) (p : Pump) : (r.readUpTo most).Preserves (P p) :=
  Reader.preserves_readUpTo (readable.plays p) (fun isOpen => readable.take isOpen p) most

theorem drainLoop (readable : Readable r P) (chunks : Nat) : (Pump.drainLoop r chunks).Preserves P :=
  readable.toFillable.drainLoop readable.readUpTo chunks

end Readable

namespace Drainable

/-- So a whole drain changes nothing of it. -/
theorem drain (drainable : Drainable r P) : (Pump.drain r).Preserves P := by
  have closed : (liftM (closeReader r) : Owning Pump Unit).Preserves P := .lift fun p w holds => by
    rcases closeReader_cases r w with ⟨-, same⟩ | shut | same
    · rwa [same]
    · rw [shut]
      exact drainable.shut p w holds
    · rwa [same]
  exact .bind (.lift fun _ => .get) fun w => .bind (drainable.drainLoop _).attempt fun outcome =>
    .bind closed fun _ => .bind (.lift fun _ => .ofExcept _) fun _ => drainable.writeTail

/-- Neither does the thread of a pump that drains, while it is waited for. -/
theorem join (drainable : Drainable r P) {p : Pump} (isDrain : p.direction = .drain)
    (ends : readerOf p.pipeEnd = some r) (limit : Option Time) (holds : P p w) :
    P ((Pump.join limit).exec p w).2.1 ((Pump.join limit).exec p w).2.2 := by
  have run (w : World) (holds : P p w) : P (Pump.run.exec p w).2.1 (Pump.run.exec p w).2.2 := by
    obtain ⟨line, ran⟩ := exec_run p w
    have moved := drainable.drain { p with pipeEnd := .gone } w (drainable.stands p w _ _ _ holds)
    rw [exec_move_of_drain isDrain ends] at ran
    generalize (Pump.drain r).exec { p with pipeEnd := .gone } w = result at ran moved
    obtain ⟨outcome, p₁, w₁⟩ := result
    rw [ran]
    exact drainable.aside _ w₁ _ _ (drainable.stands p₁ w₁ _ _ _ moved)
  have emitted := drainable.joined p w p.threadName limit holds
  unfold Pump.join
  rw [Owning.exec_bind, Owning.exec_own]
  dsimp only
  cases p.thread with
  | unstarted => exact holds
  | finished => exact emitted
  | running =>
    obtain ⟨outcome, w₁, entries, waited, plays, -⟩ :=
      Sim.exec_runUntil p.inputEnded limit (w.emit (.joined p.threadName limit))
    have later := drainable.plays p _ _ _ plays emitted
    simp only [Owning.exec_bind, Owning.exec_lift, Sim.exec_emit, waited]
    cases outcome with
    | error e => exact later
    | ok ended => cases ended with
      | false => exact later
      | true => exact run w₁ later

end Drainable

/-- A pump that drains is waited for without a limit: stderr has come to its end, and is drained. -/
theorem join_running {p p' : Pump} (running : p.thread = .running) (isDrain : p.direction = .drain)
    (ends : readerOf p.pipeEnd = some r) (ran : (Pump.join none).exec p w = (.ok (), p', w')) :
    ∃ w₁ entries p₁ w₂ outcome line, (w.emit (.joined p.threadName none)).Plays w₁ entries ∧
      r.atEnd w₁ = true ∧ (drain r).exec { p with pipeEnd := .gone } w₁ = (outcome, p₁, w₂) ∧
      p' = { p₁ with error := p₁.verdict outcome, thread := .finished } ∧
      w' = { w₂ with log := line :: w₂.log } := by
  unfold Pump.join at ran
  rw [Owning.exec_bind, Owning.exec_own] at ran
  simp only [running] at ran
  obtain ⟨_, w₁, joined, ran⟩ := Owning.lift_bind_ok ran
  cases joined
  obtain ⟨_, w₁, waited, ran⟩ := Owning.lift_bind_ok ran
  obtain ⟨rfl, ended, entries, plays⟩ := Sim.runUntil_ok waited
  rw [if_pos rfl] at ran
  obtain ⟨line, moved⟩ := exec_run p w₁
  rw [exec_move_of_drain isDrain ends] at moved
  generalize drained : (drain r).exec { p with pipeEnd := .gone } w₁ = result at moved
  obtain ⟨outcome, p₁, w₂⟩ := result
  rw [moved] at ran
  cases ran
  refine ⟨w₁, entries, p₁, w₂, outcome, line, plays, ?_, drained, rfl, rfl⟩
  rw [inputEnded, ends] at ended
  exact ended

/-- No drain changes the settings of its pump. -/
theorem drainable_settings (r : Reader) (settings : PumpSettings) :
    Drainable r fun p _ => p.settings = settings where
  moves _ _ _ _ := id
  stands _ _ _ _ _ := id
  plays _ _ _ _ _ := id
  aside _ _ _ _ := id
  joined _ _ _ _ := id
  take _ _ _ _ _ _ := id
  shut _ _ := id

theorem exec_writeBuffer {p : Pump} {ref : ObjectRef} {acc : Bytes} (buffer : p.buffer = .object ref)
    (kind : ref.kind = .byteArray) (holds : w.memory.get? ref = some (.byteArray acc)) (chunk : Bytes) :
    (writeBuffer chunk).exec p w
      = (.ok (), p, { w with memory := w.memory.put ref (.byteArray (acc ++ chunk)) }) := by
  unfold writeBuffer
  rw [Owning.exec_bind, Owning.exec_own]
  dsimp only
  rw [buffer]
  dsimp only
  rw [kind]
  dsimp only
  rw [Owning.exec_lift, exec_onMemory, Memory.writeBytes, holds]

end Pump

/-- Reading some of what is there lets the processes act, and answers nothing only where it may not read or
nothing is there. -/
theorem Reader.exec_readUpTo {r : Reader} {most : Int} {pipe : Nat} {b : Bytes} (isOpen : r.closed = false)
    (leads : w.pipeOf? r.descriptor = some pipe) (ran : (r.readUpTo most).exec w = (.ok b, w')) :
    ∃ w₁ entries count, w.Plays w₁ entries ∧ b = (w₁.content pipe).take count ∧
      w' = w₁.consume count (.readEnd pipe) ∧ (b = [] → most = 0 ∨ w₁.content pipe = []) := by
  unfold readUpTo at ran
  split at ran
  · obtain ⟨w₁, entries, plays, -, rfl, rfl⟩ := exec_readAll isOpen leads ran
    exact ⟨w₁, entries, _, plays, List.take_length.symm, rfl, .inr⟩
  · next notNegative =>
    unfold readSome at ran
    obtain ⟨_, w₀, checked, ran⟩ := Sim.bind_ok ran
    simp only [checkOpen, isOpen, Bool.false_eq_true, if_false, Sim.exec_pure] at checked
    cases checked
    obtain ⟨_, w₁, waited, ran⟩ := Sim.bind_ok ran
    obtain ⟨-, -, entries, plays⟩ := Sim.runUntil_ok waited
    rw [exec_take (plays.pipeOf?.trans leads)] at ran
    cases ran
    refine ⟨w₁, entries, _, plays, rfl, rfl, fun empty => ?_⟩
    rcases List.take_eq_nil_iff.mp empty with zero | nothing
    · exact .inl (by omega)
    · exact .inr nothing

namespace Memory

variable {m : Memory} {ref : ObjectRef} {cell : Cell}

theorem get?_put (there : (m.get? ref).isSome) : (m.put ref cell).get? ref = some cell := by
  have known : ref.id < m.cells.length := by simpa [get?] using there
  simp [get?, put, known]

theorem get?_add (m : Memory) (cell : Cell) : (m.add cell).2.get? (m.add cell).1 = some cell := by
  simp [get?, add]

end Memory

namespace Exchange

/-! ## The drain of the caller's end -/

/-- In the middle of draining: nobody writes to stderr any more, and the byte array holds what has been
drained. -/
structure Drains (c : Call) (s : Exchange) (w : World) (out : Option Outflow)
    (inn : Stream → Option Inflow) (i : Inflow) (ref : ObjectRef) (acc : Bytes) : Prop where
  reaches : Reaches c s w .joining out inn
  there : inn .stderr = some i
  isOpen : i.reader.closed = false
  leads : w.pipeOf? i.reader.descriptor = some i.pipe
  noWriter : w.hasWriter i.pipe = false
  holds : w.memory.get? ref = some (.byteArray acc)

variable {w₀ : World} {i : Inflow} {ref : ObjectRef} {acc chunk : Bytes}

/-- The pump reads a chunk. -/
theorem Drains.read {most : Int} (drains : Drains c s w out inn i ref acc) (sound : s.Sound w₀)
    (advanced : s.Advanced c) (ran : (i.reader.readUpTo most).exec w = (.ok chunk, w')) :
    Drains c s w' out (Function.update inn .stderr (some (i.take chunk))) (i.take chunk) ref acc ∧
      w.content i.pipe = chunk ++ w'.content i.pipe ∧
      (chunk = [] → most = 0 ∨ w'.content i.pipe = []) := by
  obtain ⟨w₁, entries, count, plays, rfl, rfl, empty⟩ :=
    Reader.exec_readUpTo drains.isOpen drains.leads ran
  have mine : ∃ entries, i.Sound w₀ w entries := by
    obtain ⟨-, entries, run⟩ := drains.reaches
    exact ⟨entries, (run.sound sound advanced).1.inflow .stderr i drains.there⟩
  obtain ⟨_, mine⟩ := mine
  have gains : World.Gains i.pipe [] w w₁ := plays.gains mine.exclusive.processes
    (World.holders_eq_zero_iff.mp (World.hasWriter_eq_false_iff.mp drains.noWriter)).2
  have same : w₁.content i.pipe = w.content i.pipe := by rw [gains.content mine.known, List.append_nil]
  have left : (w₁.consume count (.readEnd i.pipe)).content i.pipe = (w₁.content i.pipe).drop count := by
    rw [World.consume, World.content_setContent _ _ (Nat.lt_of_lt_of_le mine.known gains.pipes), if_pos rfl]
  have step (entries : List (Nat × Bytes)) := Step.read (c := c)
    (s := { world := w₁, stage := .joining, outflow := out, inflow := inn, entries })
    (t := .stderr) rfl drains.there drains.isOpen count
  refine ⟨?_, ?_, fun none => (empty none).imp_right fun nothing => ?_⟩
  · exact
      { reaches := (drains.reaches.plays plays).tail (World.passes_consume _ _ _).keeps
          fun entries => ⟨entries, step entries⟩
        there := Function.update_self ..
        isOpen := drains.isOpen
        leads := ((World.passes_consume w₁ count _).keeps.pipeOf? _).trans
          (plays.pipeOf?.trans drains.leads)
        noWriter := World.hasWriter_eq_false_iff.mpr (World.releases_consume.holders rfl
          (gains.holders rfl (World.hasWriter_eq_false_iff.mp drains.noWriter)))
        holds := by
          rw [(World.same_of_consume w₁ count _).2, plays.memory]
          exact drains.holds }
  · rw [left, List.take_append_drop, same]
  · rw [left, nothing, List.drop_nil]

/-- The pump puts a chunk into the byte array. -/
theorem Drains.write (drains : Drains c s w out inn i ref acc) (chunk : Bytes) :
    Drains c s { w with memory := w.memory.put ref (.byteArray (acc ++ chunk)) } out inn i ref
      (acc ++ chunk) :=
  { drains with
    reaches := drains.reaches.aside rfl rfl rfl rfl
    holds := Memory.get?_put (by rw [drains.holds]; rfl) }

/-- The pump goes on to the end of what is there. -/
theorem Drains.drainLoop {p p' : Pump} {chunks : Nat} (drains : Drains c s w out inn i ref acc)
    (sound : s.Sound w₀) (advanced : s.Advanced c) (buffer : p.buffer = .object ref)
    (kind : ref.kind = .byteArray) (enough : (w.content i.pipe).length < chunks)
    (ran : (Pump.drainLoop i.reader chunks).exec p w = (.ok (), p', w')) :
    p'.decoder = p.decoder ∧ ∃ b,
      Drains c s w' out (Function.update inn .stderr (some (i.take b))) (i.take b) ref (acc ++ b) ∧
      (p.settings.chunkSize = some 0 ∨ w'.content i.pipe = []) := by
  induction chunks generalizing p w inn i acc with
  | zero => cases enough
  | succ chunks ih =>
    unfold Pump.drainLoop at ran
    rw [Owning.exec_bind, Owning.exec_own] at ran
    obtain ⟨chunk, w₁, chunked, ran⟩ := Owning.lift_bind_ok ran
    obtain ⟨read, content, empty⟩ := drains.read sound advanced chunked
    split at ran
    · next isEmpty =>
      rw [List.isEmpty_iff] at isEmpty
      cases ran
      refine ⟨rfl, [], ?_, (empty isEmpty).imp_left fun zero => ?_⟩
      · rw [isEmpty] at read
        rwa [List.append_nil]
      · unfold Pump.readLimit at zero
        cases size : p.settings.chunkSize with
        | none => simp [size] at zero
        | some n => simpa [size] using zero
    · next notEmpty =>
      obtain ⟨_, p₂, w₂, written, ran⟩ := Owning.bind_ok ran
      rw [Pump.exec_writeBuffer buffer kind read.holds] at written
      cases written
      rw [Owning.exec_bind, Pump.count, Owning.exec_change] at ran
      dsimp only at ran
      have shorter : (w₁.content i.pipe).length < chunks := by
        have positive := List.length_pos_iff.mpr (mt List.isEmpty_iff.mpr notEmpty)
        rw [content, List.length_append] at enough
        omega
      obtain ⟨decoder, b, drained, ended⟩ :=
        ih (p := { p with moved := p.moved + chunk.length }) (read.write chunk) buffer shorter ran
      refine ⟨decoder, chunk ++ b, ?_, ended⟩
      rw [Function.update_idem] at drained
      simpa [Inflow.take] using drained

/-- The pump comes to the end of stderr and closes its end. -/
theorem Drains.drain {p p' : Pump} (drains : Drains c s w out inn i ref acc) (sound : s.Sound w₀)
    (advanced : s.Advanced c) (buffer : p.buffer = .object ref) (kind : ref.kind = .byteArray)
    (undecoded : p.decoder = none) (size : p.settings.chunkSize = c.settings.chunkSize)
    (ran : (Pump.drain i.reader).exec p w = (.ok (), p', w')) :
    ∃ b, w'.memory.get? ref = some (.byteArray (acc ++ b)) ∧
      Reaches c s w' .joining out (Function.update inn .stderr (some (i.take b).close)) := by
  unfold Pump.drain at ran
  obtain ⟨_, _, looked, ran⟩ := Owning.lift_bind_ok ran
  cases looked
  obtain ⟨tried, p₁, w₁, attempted, ran⟩ := Owning.bind_ok ran
  obtain ⟨_, w₂, closed, ran⟩ := Owning.lift_bind_ok ran
  obtain ⟨_, _, success, ran⟩ := Owning.lift_bind_ok ran
  cases success
  rw [Reader.content_of drains.leads] at attempted
  obtain ⟨decoder, b, drained, atEnd⟩ := drains.drainLoop sound advanced buffer kind (Nat.lt_succ_self _)
    (Owning.attempt_ok attempted)
  have shut : w₂ = w₁.shut i.reader.descriptor := by
    rcases Pump.closeReader_cases i.reader w₁ with ⟨isClosed, -⟩ | shut | failed
    · exact nomatch drains.isOpen.symm.trans isClosed
    · exact (Prod.mk.inj (closed.symm.trans shut)).2
    · exact nomatch closed.symm.trans failed
  have same : w' = w₂ := by
    unfold Pump.writeTail at ran
    rw [Owning.exec_bind, Owning.exec_own] at ran
    dsimp only at ran
    rw [decoder, undecoded] at ran
    cases ran
    rfl
  rw [same, shut]
  refine ⟨b, drained.holds, drained.reaches.tail (World.keeps_shut _) fun entries => ⟨entries, ?_⟩⟩
  have step := Step.drained (c := c)
    (s := { world := w₁, stage := .joining, outflow := out, entries
            inflow := Function.update inn .stderr (some (i.take b)) })
    (.inr rfl) drained.there drained.isOpen
    (size ▸ atEnd.imp_right fun nothing => ⟨nothing, drained.noWriter⟩)
  rwa [Function.update_idem] at step

/-- The pump that was started for stderr is waited for. If it has no failure to tell of, it has drained
stderr into the byte array. -/
theorem Reaches.drains {p p' : Pump} (reaches : Reaches c s w .joining out inn) (sound : s.Sound w₀)
    (advanced : s.Advanced c) (there : inn .stderr = some i) (isOpen : i.reader.closed = false)
    (leads : w.pipeOf? i.reader.descriptor = some i.pipe) (kind : ref.kind = .byteArray)
    (holds : w.memory.get? ref = some (.byteArray [])) (name logger : Text)
    (isPump : p = { Pump.make .drain (.reader i.reader) (.object ref) name logger
      { chunkSize := c.settings.chunkSize } with thread := .running })
    (ran : (Pump.join none).exec p w = (.ok (), p', w')) (quiet : p'.error = none) :
    ∃ b, w'.memory.bytesOf ref = b ∧
      Reaches c s w' .joining out (Function.update inn .stderr (some (i.take b).close)) := by
  obtain ⟨w₁, entries, p₁, w₂, outcome, line, plays, atEnd, drained, rfl, rfl⟩ :=
    Pump.join_running (r := i.reader) (isPump ▸ rfl) (isPump ▸ rfl) (isPump ▸ rfl) ran
  have settings : p₁.settings = p.settings := by
    have kept := (Pump.drainable_settings i.reader p.settings).drain { p with pipeEnd := .gone } w₁ rfl
    rwa [drained] at kept
  cases outcome with
  | error e =>
    have strict : p₁.settings.ignoresBrokenPipe = false := by
      rw [settings, isPump]
      rfl
    simp [Pump.verdict, strict] at quiet
  | ok _ =>
    have leads₁ : w₁.pipeOf? i.reader.descriptor = some i.pipe := plays.pipeOf?.trans leads
    have start : Drains c s w₁ out inn i ref [] :=
      { reaches := (reaches.emit (.joined p.threadName none)).plays plays
        there, isOpen
        leads := leads₁
        noWriter := by rwa [Reader.atEnd_of leads₁, Bool.not_eq_true'] at atEnd
        holds := by
          rw [plays.memory]
          exact holds }
    obtain ⟨b, collected, done⟩ := start.drain sound advanced (isPump ▸ rfl) kind (isPump ▸ rfl)
      (isPump ▸ rfl) drained
    refine ⟨b, ?_, done.aside rfl rfl rfl rfl⟩
    change w₂.memory.bytesOf ref = b
    rw [Memory.bytesOf, collected]
    rfl

/-! ## Pumps on other pipes -/

/-- The caller's ends stay on the pipes that they are on. -/
theorem Run.owns {s' : Exchange} (run : Run c s s') {pipe : Nat} (owns : s'.Owns pipe) : s.Owns pipe := by
  rcases owns with ⟨o', stdin, rfl⟩ | ⟨t, i', there, rfl⟩
  · exact .inl (run.sameEnds.outflow_cases stdin)
  · obtain ⟨i, there, same⟩ := run.sameEnds.inflow_cases there
    exact .inr ⟨t, i, there, same⟩

/-- Something happens that has nothing to do with the pipes that the caller's ends are on. -/
theorem Reaches.elsewhere (reaches : Reaches c s w stage out inn) (keeps : w.Keeps w')
    (apart : World.Elsewhere s.Owns w w') : Reaches c s w' stage out inn := by
  obtain ⟨kept, entries, run⟩ := reaches
  refine ⟨kept.trans keeps, entries, run.tail (.elsewhere ?_)⟩
  exact ⟨apart.processes, fun pipe owns => apart.content pipe (run.owns owns), apart.length,
    fun pipe owns => apart.descriptors pipe (run.owns owns)⟩

/-- A pump is no concern of an exchange: if it runs, it drains another pipe. -/
def Foreign (s : Exchange) (p : Pump) : Prop :=
  p.thread = .running → p.direction = .drain ∧ ∃ r, Pump.readerOf p.pipeEnd = some r ∧
    ∀ pipe, s.world.pipeOf? r.descriptor = some pipe → ¬ s.Owns pipe

/-- What a drain of another pipe may change is no concern of an exchange. -/
theorem drainable_reaches {r : Reader}
    (apart : ∀ pipe, s.world.pipeOf? r.descriptor = some pipe → ¬ s.Owns pipe) :
    Pump.Drainable r fun _ w => Reaches c s w stage out inn where
  moves _ _ _ _ := id
  stands _ _ _ _ _ := id
  plays _ _ _ _ plays reaches := reaches.plays plays
  aside _ _ _ _ reaches := reaches.aside rfl rfl rfl rfl
  joined _ _ _ _ reaches := reaches.emit _
  take _ _ w pipe count leads reaches := by
    have foreign : ¬ s.Owns pipe := apart pipe (by rwa [← reaches.1.pipeOf?])
    refine reaches.elsewhere (World.passes_consume w count _).keeps
      { processes := rfl
        content := fun other owns => World.content_setContent_other w _ fun same => foreign (same ▸ owns)
        length := Nat.le_of_eq (List.length_set ..).symm
        descriptors := fun _ _ _ member _ => member }
  shut _ w reaches :=
    reaches.elsewhere (World.keeps_shut _)
      { processes := rfl
        content := fun _ _ => rfl
        length := Nat.le_refl _
        descriptors := fun _ _ _ member _ => (List.mem_filter.mp member).1 }

/-- Waiting for such a pump is no concern of an exchange. -/
theorem Reaches.join {p : Pump} (reaches : Reaches c s w stage out inn) (foreign : s.Foreign p)
    (limit : Option Time) : Reaches c s ((Pump.join limit).exec p w).2.2 stage out inn := by
  by_cases running : p.thread = .running
  · obtain ⟨isDrain, r, ends, apart⟩ := foreign running
    exact (drainable_reaches apart).join isDrain ends limit reaches
  · unfold Pump.join
    rw [Owning.exec_bind, Owning.exec_own]
    dsimp only
    cases thread : p.thread with
    | unstarted => exact reaches
    | finished => exact reaches.aside rfl rfl rfl rfl
    | running => exact absurd thread running

/-- Neither is waiting for several. -/
theorem Reaches.joinAll (deadline : Option Time) {pumps : List Pump} (reaches : Reaches c s w stage out inn)
    (foreign : ∀ p ∈ pumps, s.Foreign p) :
    Reaches c s (Id.run ((Handle.onPumps (Handle.joinBy deadline) pumps).run w)).2 stage out inn := by
  induction pumps generalizing w with
  | nil => exact reaches
  | cons p rest ih =>
    have first : Reaches c s ((Handle.joinBy deadline).exec p w).2.2 stage out inn := by
      rw [Handle.joinBy, Owning.exec_bind, Owning.exec_lift, Handle.exec_remaining]
      exact reaches.join (foreign p List.mem_cons_self) _
    rw [Handle.run_onPumps_cons]
    generalize (Handle.joinBy deadline).exec p w = result at first
    obtain ⟨outcome, p', w₁⟩ := result
    cases outcome with
    | error e => exact first
    | ok _ => exact ih first fun q member => foreign q (List.mem_cons_of_mem _ member)

end Exchange

end Pipework
