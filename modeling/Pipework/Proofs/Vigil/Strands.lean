import Pipework.Proofs.Exchange.Draining
import Pipework.Proofs.Vigil.Steps

/-!
# One pump at work

A step of a pump's thread moves bytes on and loses none: what has been put into the buffer, and what is on its
way there, is what was taken out of the pipe (`Strand.Step.sound`). To other pipes and to the processes it is
nothing, and a byte array only changes by what is put into it.
-/

namespace Pipework

open World (Ended Gains)

variable {w₀ w w' : World} {entries : List (Nat × Bytes)}

@[simp] theorem drawnFrom_nil (pipe : Nat) : drawnFrom pipe [] = [] := rfl

@[simp] theorem drawnFrom_append (pipe : Nat) (a b : List Put) :
    drawnFrom pipe (a ++ b) = drawnFrom pipe a ++ drawnFrom pipe b := by
  simp [drawnFrom]

@[simp] theorem putInto_nil (id : Nat) : putInto id [] = [] := rfl

@[simp] theorem putInto_append (id : Nat) (a b : List Put) :
    putInto id (a ++ b) = putInto id a ++ putInto id b := by
  simp [putInto]

/-! ## Buffers -/

namespace Memory

variable {m m' : Memory} {ref ref' : ObjectRef} {cell : Cell} {id : Nat} {b : Bytes}

theorem get?_put_of_ne (other : ref'.id ≠ ref.id) : (m.put ref cell).get? ref' = m.get? ref' := by
  simp [get?, put, List.getElem?_set_ne (Ne.symm other)]

/-- What holds the same is the same byte array. -/
theorem array?_of_same (same : m'.get? ref = m.get? ref) : m'.array? ref.id = m.array? ref.id := by
  simp only [get?] at same
  rw [array?, array?, same]

theorem get?_of_array? (there : m.array? ref.id = some b) : m.get? ref = some (.byteArray b) := by
  unfold array? at there
  split at there
  · next found =>
    cases there
    exact found
  · cases there

/-- To write to an object is nothing to others. -/
theorem get?_writeBytes_of_ne (m : Memory) (data : Bytes) (other : ref'.id ≠ ref.id) :
    (m.writeBytes ref data).2.get? ref' = m.get? ref' := by
  unfold writeBytes
  split
  · exact get?_put_of_ne other
  · exact get?_put_of_ne other
  · split
    · rfl
    · exact get?_put_of_ne other
  all_goals rfl

theorem get?_writeText_of_ne (m : Memory) (t : Text) (other : ref'.id ≠ ref.id) :
    (m.writeText ref t).2.get? ref' = m.get? ref' := by
  unfold writeText
  split
  · exact get?_put_of_ne other
  · exact get?_put_of_ne other
  · rfl

/-- A byte array takes bytes at its end. -/
theorem array?_writeBytes (there : m.array? ref.id = some b) (data : Bytes) :
    (m.writeBytes ref data).2.array? ref.id = some (b ++ data) := by
  have found := get?_of_array? there
  have written : (m.put ref (.byteArray (b ++ data))).cells[ref.id]? = some (.byteArray (b ++ data)) :=
    get?_put (by rw [found]; rfl)
  rw [writeBytes, found]
  simp [array?, written]

/-- What is refused is not there. -/
theorem writeBytes_refused {data : Bytes} (refused : (m.writeBytes ref data).1 ≠ .ok ()) :
    (m.writeBytes ref data).2 = m := by
  unfold writeBytes at refused ⊢
  split at refused <;> try rfl
  · exact absurd rfl refused
  · exact absurd rfl refused
  · split at refused
    · rfl
    · exact absurd rfl refused

theorem writeText_refused {t : Text} (refused : (m.writeText ref t).1 ≠ .ok ()) :
    (m.writeText ref t).2 = m := by
  unfold writeText at refused ⊢
  split at refused <;> first | rfl | exact absurd rfl refused

/-- A byte array takes no text. -/
theorem writeText_of_array? (there : m.array? ref.id = some b) (t : Text) :
    m.writeText ref t = (.error .wrongType, m) := by
  rw [writeText, get?_of_array? there]

/-- An object that is no byte array and stays none. -/
private theorem array?_put {old : Cell} (found : m.get? ref = some old) (before : ∀ b, old ≠ .byteArray b)
    (after : ∀ b, cell ≠ .byteArray b) (id : Nat) : (m.put ref cell).array? id = m.array? id := by
  by_cases mine : id = ref.id
  · subst mine
    have known : m.cells[ref.id]? = some old := found
    have written : (m.put ref cell).cells[ref.id]? = some cell := get?_put (by rw [found]; rfl)
    rw [array?, array?, known, written]
    cases old <;> cases cell <;> first | rfl | exact absurd rfl (before _) | exact absurd rfl (after _)
  · have same : (m.put ref cell).get? ⟨id, .byteArray⟩ = m.get? ⟨id, .byteArray⟩ := get?_put_of_ne mine
    exact array?_of_same same

/-- To write text is nothing to byte arrays. -/
theorem array?_writeText (m : Memory) (ref : ObjectRef) (t : Text) (id : Nat) :
    (m.writeText ref t).2.array? id = m.array? id := by
  unfold writeText
  split
  · next found => exact array?_put found (by simp) (by simp) id
  · next found => exact array?_put found (by simp) (by simp) id
  · rfl

end Memory

namespace Pump

/-- What putting a chunk into the buffer does to the pump and to the memory. -/
structure Wrote (chunk : Bytes) (outcome : Except Failure Unit) (p p' : Pump) (m m' : Memory) : Prop where
  buffer : p'.buffer = p.buffer
  settings : p'.settings = p.settings
  others : ∀ other : ObjectRef, (∀ ref, p.buffer = .object ref → other.id ≠ ref.id) → m'.get? other = m.get? other
  taken : outcome = .ok () → ∃ ref, p.buffer = .object ref ∧
    ∀ b, m.array? ref.id = some b → m'.array? ref.id = some (b ++ chunk)
  refused : outcome ≠ .ok () → m' = m

/-- Nothing is written. -/
private theorem wrote_nothing {chunk : Bytes} {e : Failure} (p : Pump) (m : Memory) :
    Wrote chunk (.error e) p p m m where
  buffer := rfl
  settings := rfl
  others _ _ := rfl
  taken := nofun
  refused _ := rfl

theorem exec_theDecoder (p : Pump) (w : World) : ∃ outcome, theDecoder.exec p w = (outcome, p, w) := by
  unfold theDecoder
  rw [Owning.exec_bind, Owning.exec_own]
  dsimp only
  split
  · exact ⟨_, rfl⟩
  · rw [Owning.exec_bind, Owning.exec_lift, Sim.exec_ofExcept]
    cases p.codingFor "lookup() argument" <;> exact ⟨_, rfl⟩

/-- Text for the pieces of a chunk goes to a text buffer. -/
private theorem wrote_text {p : Pump} {ref : ObjectRef} (buffer : p.buffer = .object ref) (chunk : Bytes) :
    ∃ outcome p' memory, (do
        let (d, pieces) := (← theDecoder).feed chunk
        Owning.change fun p => { p with decoder := some d }
        onMemory (·.writeText ref (pieces.map Piece.replaced)) : Owning Pump Unit).exec p w
        = (outcome, p', { w with memory }) ∧ Wrote chunk outcome p p' w.memory memory := by
  obtain ⟨decoder, found⟩ := exec_theDecoder p w
  rw [Owning.exec_bind, found]
  cases decoder with
  | error e => exact ⟨_, _, w.memory, rfl, wrote_nothing p _⟩
  | ok d =>
    simp only [Owning.exec_bind, Owning.exec_change, Owning.exec_lift, exec_onMemory]
    refine ⟨_, _, _, rfl, rfl, rfl, fun _ other => Memory.get?_writeText_of_ne _ _ (other ref buffer),
      fun fine => ⟨ref, buffer, fun b there => ?_⟩, Memory.writeText_refused⟩
    rw [Memory.writeText_of_array? there] at fine
    cases fine

/-- Bytes go to any other object as they are. -/
private theorem wrote_bytes {p : Pump} {ref : ObjectRef} (buffer : p.buffer = .object ref) (chunk : Bytes) :
    ∃ outcome p' memory, (liftM (onMemory (·.writeBytes ref chunk)) : Owning Pump Unit).exec p w
        = (outcome, p', { w with memory }) ∧ Wrote chunk outcome p p' w.memory memory := by
  rw [Owning.exec_lift, exec_onMemory]
  exact ⟨_, _, _, rfl, rfl, rfl, fun _ other => Memory.get?_writeBytes_of_ne _ _ (other ref buffer),
    fun _ => ⟨ref, buffer, fun b there => Memory.array?_writeBytes there chunk⟩, Memory.writeBytes_refused⟩

theorem exec_writeBuffer_wrote (chunk : Bytes) (p : Pump) (w : World) : ∃ outcome p' memory,
    (writeBuffer chunk).exec p w = (outcome, p', { w with memory }) ∧
      Wrote chunk outcome p p' w.memory memory := by
  unfold writeBuffer
  rw [Owning.exec_bind, Owning.exec_own]
  dsimp only
  split
  · next ref buffer =>
    split
    · exact wrote_text buffer chunk
    · exact wrote_text buffer chunk
    · exact wrote_bytes buffer chunk
  · exact ⟨_, _, w.memory, rfl, wrote_nothing p _⟩

/-- The rest of a text changes neither the pump nor a byte array, nor any object but the buffer. -/
theorem exec_writeTail_wrote (p : Pump) (w : World) : ∃ outcome memory,
    writeTail.exec p w = (outcome, p, { w with memory }) ∧ (∀ id, memory.array? id = w.memory.array? id) ∧
      ∀ other : ObjectRef, (∀ ref, p.buffer = .object ref → other.id ≠ ref.id) →
        memory.get? other = w.memory.get? other := by
  unfold writeTail
  rw [Owning.exec_bind, Owning.exec_own]
  dsimp only
  split
  · next buffer =>
    split
    · exact ⟨.ok (), w.memory, rfl, fun _ => rfl, fun _ _ => rfl⟩
    · rw [Owning.exec_lift, exec_onMemory]
      exact ⟨_, _, rfl, Memory.array?_writeText _ _ _,
        fun _ other => Memory.get?_writeText_of_ne _ _ (other _ buffer)⟩
  · exact ⟨.ok (), w.memory, rfl, fun _ => rfl, fun _ _ => rfl⟩

/-- To give up a reader is nothing to the memory. -/
theorem memory_of_closeReader {r : Reader} {w w' : World} {outcome : Except Failure Unit}
    (closed : (closeReader r).exec w = (outcome, w')) : w'.memory = w.memory := by
  rcases closeReader_cases r w with ⟨-, ran⟩ | ran | ran
  all_goals
    cases closed.symm.trans ran
    rfl

end Pump

/-! ## Threads -/

/-- What a thread comes to, once it has come to an end of its reading. -/
def Task.outcome? : Task → Option (Except Failure Unit)
  | closing outcome | ending outcome | done outcome => some outcome
  | feeding | reading | putting _ => none

/-- What a thread has read and not put into the buffer yet. -/
def Task.carried : Task → Bytes
  | putting chunk => chunk
  | feeding | reading | closing _ | ending _ | done _ => []

namespace Strand

/-- What holds of a drain: nothing is lost between its pipe and its buffer unless its thread fails, and it only
stops reading at the end. -/
structure Sound (t : Strand) (w₀ w : World) (entries : List (Nat × Bytes)) (drawn : Bytes) (i : Inflow) :
    Prop where
  inflow : i.Sound w₀ w entries
  early : i.early = []
  drains : t.task ≠ .feeding
  conserved : (∀ e, t.task.outcome? ≠ some (.error e)) → drawn ++ t.task.carried = i.taken
  ended : t.task.outcome? = some (.ok ()) → t.pump.settings.chunkSize = some 0 ∨ w.Ended i.pipe
  /-- Only a broken pipe is ever ignored. -/
  failed : ∀ e, t.task = .done (.error e) → t.pump.error = none →
    e.isBrokenPipe ∧ t.pump.settings.ignoresBrokenPipe

variable {t t' : Strand} {i i' : Inflow} {drawn : Bytes} {puts : List Put}

/-- Something happens that is nothing but more bytes to the pipe, as long as somebody can write to it. -/
theorem Sound.gains (sound : t.Sound w₀ w entries drawn i) {more : List (Nat × Bytes)}
    (gains : Gains i.pipe (enteredInto i.pipe more) w w')
    (silent : w.hasWriter i.pipe = false → enteredInto i.pipe more = []) :
    t.Sound w₀ w' (entries ++ more) drawn i :=
  { sound with
    inflow := sound.inflow.gains gains
    ended := fun ranOut => (sound.ended ranOut).imp_right fun ended => by
      rw [silent ended.noWriter] at gains
      exact ended.gains gains sound.inflow.known }

/-- Something happens that is nothing to the pipe. -/
theorem Sound.quiet (sound : t.Sound w₀ w entries drawn i) (gains : Gains i.pipe [] w w') :
    t.Sound w₀ w' entries drawn i := by
  have kept : t.Sound w₀ w' (entries ++ []) drawn i := sound.gains gains fun _ => rfl
  rwa [List.append_nil] at kept

/-- The memory is nothing to a pipe. -/
theorem Sound.remember (sound : t.Sound w₀ w entries drawn i) (memory : Memory) :
    t.Sound w₀ { w with memory } entries drawn i := sound.quiet (World.gains_of_same rfl rfl rfl)

/-- What a step of a thread can change of the world, and what it cannot. -/
structure Effect (t : Strand) (w w' : World) (t' : Strand) (puts : List Put) : Prop where
  processes : w'.processes = w.processes
  /-- A pipe that the thread does not drain is as it was. -/
  gains : ∀ pipe, t.ends.1 ≠ some pipe → Gains pipe [] w w'
  logged : ∀ x ∈ puts, (some x.pipe, x.buffer) = t.ends
  /-- A byte array only grows by what is put into it. -/
  arrays : ∀ id b, w.memory.array? id = some b → w'.memory.array? id = some (b ++ putInto id puts)
  /-- An object that is not the buffer is as it was. -/
  others : ∀ other : ObjectRef, (∀ ref, t.pump.buffer = .object ref → other.id ≠ ref.id) →
    w'.memory.get? other = w.memory.get? other
  ends : t'.ends = t.ends
  settings : t'.pump.settings = t.pump.settings

/-- Only the thread moves on. -/
private theorem Effect.of_same (ends : t'.ends = t.ends) (settings : t'.pump.settings = t.pump.settings) :
    t.Effect w w t' [] where
  processes := rfl
  gains _ _ := .refl
  logged := by simp
  arrays _ _ there := by rwa [putInto_nil, List.append_nil]
  others _ _ := rfl
  ends := ends
  settings := settings

/-- Putting a chunk into the buffer changes the memory, and there only the buffer. -/
private theorem Effect.of_wrote {chunk : Bytes} {p : Pump} {m : Memory} (there : t.inflow = some i)
    (wrote : Pump.Wrote chunk (.ok ()) t.pump p w.memory m) (moved : Nat) (task : Task) :
    t.Effect w { w with memory := m } { t with pump := { p with moved }, task }
      [⟨i.pipe, t.pump.buffer, chunk⟩] where
  processes := rfl
  gains _ _ := World.gains_of_same rfl rfl rfl
  logged := by simp [Strand.ends, there]
  arrays id b before := by
    obtain ⟨ref, buffer, taken⟩ := wrote.taken rfl
    by_cases mine : id = ref.id
    · subst mine
      simpa [putInto, buffer] using taken b before
    · have same := wrote.others ⟨id, .byteArray⟩ fun other isBuffer => by
        cases buffer.symm.trans isBuffer
        exact mine
      simpa [putInto, buffer, Ne.symm mine] using (Memory.array?_of_same same).trans before
  others := wrote.others
  ends := by rw [Strand.ends, Strand.ends, wrote.buffer]
  settings := wrote.settings

/-- Nothing is put into a buffer out of another pipe. -/
theorem Effect.drawnFrom_other (effect : t.Effect w w' t' puts) {pipe : Nat} (other : t.ends.1 ≠ some pipe) :
    drawnFrom pipe puts = [] := by
  refine List.flatMap_eq_nil_iff.mpr fun x member => if_neg fun same => other ?_
  rw [← effect.logged x member, same]

theorem Step.effect (step : t.Step w w' t' puts) : t.Effect w w' t' puts := by
  cases step with
  | feeds task outcome moved => exact .of_same rfl rfl
  | fails task e => exact .of_same rfl rfl
  | ends task there ended => exact .of_same rfl rfl
  | @reads i task there isOpen count any =>
    have mine : t.ends.1 = some i.pipe := by rw [Strand.ends, there, Option.map_some]
    exact
      { processes := (World.same_of_consume w count _).1
        gains := fun pipe other => World.gains_consume fun same =>
          other (mine.trans (congrArg some (Channel.readEnd.inj same)))
        logged := by simp
        arrays := fun id b before => by
          rw [(World.same_of_consume w count _).2, putInto_nil, List.append_nil]
          exact before
        others := fun _ _ => by rw [(World.same_of_consume w count _).2]
        ends := by rw [Strand.ends, Strand.ends, there]; rfl
        settings := rfl }
  | @puts i chunk p _ task there taken =>
    obtain ⟨_, _, _, ran, wrote⟩ := Pump.exec_writeBuffer_wrote chunk t.pump w
    cases taken.symm.trans ran
    exact .of_wrote there wrote _ _
  | @refused chunk e p _ task refused =>
    obtain ⟨_, _, _, ran, wrote⟩ := Pump.exec_writeBuffer_wrote chunk t.pump w
    cases refused.symm.trans ran
    have same := wrote.refused nofun
    subst same
    exact .of_same (by rw [Strand.ends, Strand.ends, wrote.buffer]) wrote.settings
  | @closes i outcome closing _ task there closed =>
    have ends : ({ t with task := .ending (do closing; outcome), inflow := some i.close } : Strand).ends
        = t.ends := by
      rw [Strand.ends, Strand.ends, there]
      rfl
    rcases Pump.closeReader_cases i.reader w with ⟨-, ran⟩ | ran | ran
    · cases closed.symm.trans ran
      exact .of_same ends rfl
    · cases closed.symm.trans ran
      exact { Effect.of_same (w := w) ends rfl with gains := fun _ _ => World.gains_shut }
    · cases closed.symm.trans ran
      exact .of_same ends rfl
  | @finishes outcome last p _ task ended =>
    rw [Owning.exec_bind, Owning.exec_lift, Sim.exec_ofExcept] at ended
    cases outcome with
    | error e =>
      cases ended
      exact .of_same rfl rfl
    | ok _ =>
      obtain ⟨_, _, ran, same, others⟩ := Pump.exec_writeTail_wrote t.pump w
      cases ended.symm.trans ran
      exact
        { Effect.of_same (w := w) rfl rfl with
          gains := fun _ _ => World.gains_of_same rfl rfl rfl
          arrays := fun id b before => by
            rw [putInto_nil, List.append_nil]
            exact (same id).trans before
          others }

/-- A thread is never at the same task twice in a row. -/
theorem Step.task_ne (step : t.Step w w' t' puts) : t'.task ≠ t.task := by
  cases step with
  | feeds task | reads task | fails task | ends task | puts task | refused task | closes task
  | finishes task =>
    rw [task]
    exact nofun

/-- A thread that has finished does nothing more. -/
theorem Step.unfinished (step : t.Step w w' t' puts) (outcome : Except Failure Unit) :
    t.task ≠ .done outcome := by
  cases step with
  | feeds task | reads task | fails task | ends task | puts task | refused task | closes task
  | finishes task =>
    rw [task]
    exact nofun

/-- Of the failures that a thread can come to, only a broken pipe may be ignored. -/
theorem ignored_of_verdict {p : Pump} {e : Failure} (quiet : p.verdict (.error e) = none) :
    e.isBrokenPipe ∧ p.settings.ignoresBrokenPipe := by
  unfold Pump.verdict at quiet
  dsimp only at quiet
  split at quiet
  · next ignored => exact (Bool.and_eq_true ..).mp ignored
  · cases quiet

/-- A thread that is still reading has lost nothing. -/
private theorem Sound.onward (sound : t.Sound w₀ w entries drawn i) (running : t.task.outcome? = none) :
    drawn ++ t.task.carried = i.taken :=
  sound.conserved fun e failed => by
    rw [running] at failed
    cases failed

/-- Once a thread has failed, or as long as it reads, there is nothing more to know of it. -/
private theorem Sound.of_inflow (inflow : i'.Sound w₀ w entries) (early : i'.early = [])
    (drains : t.task ≠ .feeding) (more : t.task.outcome? ≠ some (.ok ()))
    (unfinished : ∀ e, t.task ≠ .done (.error e))
    (conserved : t.task.outcome? = none → drawn ++ t.task.carried = i'.taken) :
    t.Sound w₀ w entries drawn i' where
  inflow := inflow
  early := early
  drains := drains
  conserved fine := conserved <| by
    match same : t.task.outcome? with
    | none => rfl
    | some (.ok _) => exact absurd same more
    | some (.error e) => exact absurd same (fine e)
  ended ranOut := absurd ranOut more
  failed e same := absurd same (unfinished e)

/-- A step of its thread keeps a drain sound. -/
theorem Step.sound (step : t.Step w w' t' puts) (sound : t.Sound w₀ w entries drawn i)
    (there : t.inflow = some i) : ∃ i', t'.inflow = some i' ∧ i'.pipe = i.pipe ∧
      t'.Sound w₀ w' entries (drawn ++ drawnFrom i.pipe puts) i' := by
  cases step with
  | feeds task => exact absurd task sound.drains
  | @reads j task here isOpen count any =>
    cases there.symm.trans here
    have kept := sound.onward (by rw [task]; rfl)
    rw [task] at kept
    refine ⟨_, rfl, rfl, .of_inflow (sound.inflow.take count) sound.early
      (by simp) (by simp [Task.outcome?]) (by simp) fun _ => ?_⟩
    simpa [Inflow.take, Task.carried] using kept
  | fails task e =>
    exact ⟨i, there, rfl, .of_inflow sound.inflow sound.early (by simp) (by simp [Task.outcome?]) (by simp)
      (by simp [Task.outcome?])⟩
  | @ends j task here ended =>
    cases there.symm.trans here
    have kept := sound.onward (by rw [task]; rfl)
    rw [task] at kept
    refine ⟨i, there, rfl, { sound with
      drains := by simp, conserved := fun _ => ?_, ended := fun _ => ended, failed := by simp }⟩
    simpa [Task.carried] using kept
  | @puts j chunk p _ task here taken =>
    cases there.symm.trans here
    have kept := sound.onward (by rw [task]; rfl)
    rw [task] at kept
    obtain ⟨_, _, _, ran, -⟩ := Pump.exec_writeBuffer_wrote chunk t.pump w
    cases taken.symm.trans ran
    refine ⟨i, there, rfl, .of_inflow (sound.remember _).inflow sound.early
      (by simp) (by simp [Task.outcome?]) (by simp) fun _ => ?_⟩
    simpa [Task.carried, drawnFrom] using kept
  | @refused chunk e p _ task refused =>
    obtain ⟨_, _, _, ran, -⟩ := Pump.exec_writeBuffer_wrote chunk t.pump w
    cases refused.symm.trans ran
    exact ⟨i, there, rfl, .of_inflow (sound.remember _).inflow sound.early
      (by simp) (by simp [Task.outcome?]) (by simp) (by simp [Task.outcome?])⟩
  | @closes j outcome closing _ task here closed =>
    cases there.symm.trans here
    have gains : Gains i.pipe [] w w' := by
      rcases Pump.closeReader_cases i.reader w with ⟨-, ran⟩ | ran | ran
      · cases closed.symm.trans ran
        exact .refl
      · cases closed.symm.trans ran
        exact World.gains_shut
      · cases closed.symm.trans ran
        exact .refl
    have kept := sound.quiet gains
    refine ⟨i.close, rfl, rfl, ?_⟩
    rw [drawnFrom_nil, List.append_nil]
    refine
      { inflow := ⟨kept.inflow.known, kept.inflow.exclusive, kept.inflow.conserved⟩
        early := sound.early
        drains := by simp
        conserved := fun fine => ?_
        ended := fun ranOut => ?_
        failed := by simp }
    · cases closing with
      | error e => exact absurd rfl (fine e)
      | ok _ =>
        have whole := sound.conserved (by rw [task]; exact fine)
        rw [task] at whole
        exact whole
    · cases closing with
      | error e => cases ranOut
      | ok _ => exact kept.ended (by rw [task]; exact ranOut)
  | @finishes outcome last p _ task ended =>
    rw [Owning.exec_bind, Owning.exec_lift, Sim.exec_ofExcept] at ended
    have failed (e : Failure) (same : Task.done last = .done (.error e)) (quiet : p.verdict last = none) :
        e.isBrokenPipe ∧ p.settings.ignoresBrokenPipe := by
      cases same
      exact ignored_of_verdict quiet
    rw [drawnFrom_nil, List.append_nil]
    cases outcome with
    | error e =>
      cases ended
      exact ⟨i, there, rfl, { sound with
        drains := by simp, conserved := fun fine => absurd rfl (fine e), ended := by simp [Task.outcome?], failed }⟩
    | ok _ =>
      obtain ⟨_, _, ran, -⟩ := Pump.exec_writeTail_wrote t.pump w
      cases ended.symm.trans ran
      have whole := sound.conserved (by simp [task, Task.outcome?])
      rw [task] at whole
      exact ⟨i, there, rfl, { sound.remember _ with
        drains := by simp, conserved := fun _ => whole
        ended := fun _ => (sound.remember _).ended (by rw [task]; rfl), failed }⟩

end Strand

end Pipework
