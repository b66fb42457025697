import Pipework.Proofs.Exchange.Reaching
import Pipework.Proofs.Vigil.Strands

/-!
# The thread of a drain

The program runs a drain in one go, as soon as all that it will get is there. That is one schedule of the
thread's steps: first the processes act, and then the thread reads chunk by chunk, puts each into the buffer,
and finishes (`Strand.Setting.run`), whatever becomes of it on the way, and whatever else there is around it.
-/

namespace Pipework

/-! ## Reading -/

/-- A reading that fails has let the processes act, and that is all. -/
theorem Reader.exec_readUpTo_error {r : Reader} {most : Int} {w w' : World} {e : Failure}
    (isOpen : r.closed = false) (ran : (r.readUpTo most).exec w = (.error e, w')) :
    ∃ entries, w.Plays w' entries := by
  have fails (condition : World → Bool) (count : World → Nat)
      (ran : (do r.checkOpen; let _ ← runUntil condition none; r.take (count (← get)) : Sim Bytes).exec w
        = (.error e, w')) : ∃ entries, w.Plays w' entries := by
    rw [Sim.exec_bind, exec_checkOpen isOpen] at ran
    dsimp only at ran
    obtain ⟨outcome, w₁, entries, waited, plays, -⟩ := Sim.exec_runUntil condition none w
    rw [Sim.exec_bind, waited] at ran
    cases outcome with
    | error x =>
      cases ran
      exact ⟨entries, plays⟩
    | ok _ =>
      dsimp only at ran
      rw [Sim.exec_bind, Sim.exec_get] at ran
      obtain ⟨b, taken⟩ := r.exec_take_ok (count w₁) w₁
      dsimp only at ran
      rw [ran] at taken
      cases taken
  unfold readUpTo at ran
  split at ran
  · exact fails _ (fun w => (r.content w).length) ran
  · exact fails _ (fun _ => most.toNat) ran

namespace Strand

/-- What is around a thread that drains: the states of the world and of the thread that are reached. The
processes may act, the thread may go on, and what happens to no pipe may happen at any time. -/
structure Setting (R : World → Strand → Prop) : Prop where
  plays : ∀ {w w' : World} {t : Strand} {entries : List (Nat × Bytes)}, w.Plays w' entries → R w t → R w' t
  rests : ∀ {w w' : World} {t : Strand}, w.Keeps w' → World.Elsewhere (fun _ => True) w w' →
    w'.memory = w.memory → R w t → R w' t
  thread : ∀ {w w' : World} {t t' : Strand} {puts : List Put}, w.Keeps w' → t.Step w w' t' puts → R w t → R w' t'
  inflow : ∀ {w : World} {p : Pump} {i : Inflow}, R w ⟨p, .reading, some i⟩ → ∃ w₀ entries, i.Sound w₀ w entries

/-- In the middle of draining: nobody writes to the pipe any more. -/
structure Drains (R : World → Strand → Prop) (w : World) (p : Pump) (i : Inflow) : Prop where
  reached : R w ⟨p, .reading, some i⟩
  isOpen : i.reader.closed = false
  leads : w.pipeOf? i.reader.descriptor = some i.pipe
  noWriter : w.hasWriter i.pipe = false

variable {R : World → Strand → Prop} {w w' : World} {p p' : Pump} {i : Inflow} {chunk : Bytes}
  {outcome : Except Failure Unit}

/-- What the memory is does not matter to a drain. -/
private theorem keeps_memory (w : World) (memory : Memory) : w.Keeps { w with memory } :=
  World.keeps_of_same rfl rfl rfl

/-- The pump reads a chunk, or comes to the end. -/
private theorem Drains.read {most : Int} (drains : Drains R w p i) (setting : Setting R)
    (ran : (i.reader.readUpTo most).exec w = (.ok chunk, w')) :
    w.content i.pipe = chunk ++ w'.content i.pipe ∧ w'.pipeOf? i.reader.descriptor = some i.pipe ∧
      w'.hasWriter i.pipe = false ∧ (chunk ≠ [] → R w' ⟨p, .putting chunk, some (i.take chunk)⟩) ∧
      (chunk = [] → R w' ⟨p, .reading, some i⟩ ∧ (most = 0 ∨ w'.content i.pipe = [])) := by
  obtain ⟨w₁, entries, count, plays, rfl, rfl, empty⟩ :=
    Reader.exec_readUpTo drains.isOpen drains.leads ran
  obtain ⟨_, _, mine⟩ := setting.inflow drains.reached
  have gains : World.Gains i.pipe [] w w₁ := plays.gains mine.exclusive.processes
    (World.holders_eq_zero_iff.mp (World.hasWriter_eq_false_iff.mp drains.noWriter)).2
  have same : w₁.content i.pipe = w.content i.pipe := by rw [gains.content mine.known, List.append_nil]
  have left : (w₁.consume count (.readEnd i.pipe)).content i.pipe = (w₁.content i.pipe).drop count := by
    rw [World.consume, World.content_setContent _ _ (Nat.lt_of_lt_of_le mine.known gains.pipes), if_pos rfl]
  have keeps := (World.passes_consume w₁ count (.readEnd i.pipe)).keeps
  have there := setting.plays plays drains.reached
  refine ⟨?_, (keeps.pipeOf? _).trans (plays.pipeOf?.trans drains.leads),
    World.hasWriter_eq_false_iff.mpr (World.releases_consume.holders rfl
      (gains.holders rfl (World.hasWriter_eq_false_iff.mp drains.noWriter))), fun any => ?_, fun none => ?_⟩
  · rw [left, List.take_append_drop, same]
  · exact setting.thread keeps (.reads rfl rfl drains.isOpen count any) there
  · refine ⟨setting.rests keeps ?_ (World.same_of_consume w₁ count _).2 there, (empty none).imp_right ?_⟩
    · refine ⟨(World.same_of_consume w₁ count _).1, fun pipe _ => ?_, Nat.le_of_eq (List.length_set ..).symm,
        fun _ _ _ member _ => member⟩
      by_cases mine : pipe = i.pipe
      · subst mine
        rw [left]
        have whole := List.take_append_drop count (w₁.content i.pipe)
        rwa [none, List.nil_append] at whole
      · exact World.content_setContent_other w₁ _ mine
    · intro nothing
      rw [left, nothing, List.drop_nil]

/-- The pump goes on until it has come to an end of its reading. -/
private theorem Drains.drainLoop {chunks : Nat} (drains : Drains R w p i) (setting : Setting R)
    (enough : (w.content i.pipe).length < chunks)
    (ran : (Pump.drainLoop i.reader chunks).exec p w = (outcome, p', w')) :
    ∃ b, R w' ⟨p', .closing outcome, some (i.take b)⟩ := by
  induction chunks generalizing p w i with
  | zero => cases enough
  | succ chunks ih =>
    unfold Pump.drainLoop at ran
    rw [Owning.exec_bind, Owning.exec_own] at ran
    dsimp only at ran
    rw [Owning.exec_bind, Owning.exec_lift] at ran
    generalize chunked : (i.reader.readUpTo p.readLimit).exec w = result at ran
    obtain ⟨tried, w₁⟩ := result
    cases tried with
    | error e =>
      cases ran
      obtain ⟨_, plays⟩ := Reader.exec_readUpTo_error drains.isOpen chunked
      have failed := setting.thread (.refl _) (.fails rfl e) (setting.plays plays drains.reached)
      exact ⟨[], by simpa [Inflow.take] using failed⟩
    | ok chunk =>
      obtain ⟨content, leads, noWriter, more, ranOut⟩ := drains.read setting chunked
      dsimp only at ran
      split at ran
      · next isEmpty =>
        obtain ⟨there, ended⟩ := ranOut (List.isEmpty_iff.mp isEmpty)
        have ended : p.settings.chunkSize = some 0 ∨ w₁.Ended i.pipe := by
          refine ended.imp (fun zero => ?_) fun nothing => ⟨nothing, noWriter⟩
          unfold Pump.readLimit at zero
          cases size : p.settings.chunkSize with
          | none => simp [size] at zero
          | some n => simpa [size] using zero
        have finished := setting.thread (.refl _) (.ends rfl rfl ended) there
        rw [Owning.exec_pure] at ran
        cases ran
        exact ⟨[], by simpa [Inflow.take] using finished⟩
      · next notEmpty =>
        have putting := more (mt List.isEmpty_iff.mpr notEmpty)
        obtain ⟨written, p₂, memory, wrote, -⟩ := Pump.exec_writeBuffer_wrote chunk p w₁
        rw [Owning.exec_bind, wrote] at ran
        cases written with
        | error e =>
          cases ran
          exact ⟨chunk, setting.thread (keeps_memory w₁ memory) (.refused rfl wrote) putting⟩
        | ok _ =>
          dsimp only at ran
          rw [Owning.exec_bind, Pump.count, Owning.exec_change] at ran
          dsimp only at ran
          have reading := setting.thread (keeps_memory w₁ memory) (.puts rfl rfl wrote) putting
          have shorter : (w₁.content i.pipe).length < chunks := by
            have positive := List.length_pos_iff.mpr (mt List.isEmpty_iff.mpr notEmpty)
            rw [content, List.length_append] at enough
            omega
          obtain ⟨b, there⟩ := ih (i := i.take chunk)
            ⟨reading, drains.isOpen, ((keeps_memory w₁ memory).pipeOf? _).trans leads, noWriter⟩ shorter ran
          exact ⟨chunk ++ b, by simpa [Inflow.take] using there⟩

/-- After the reading the reader is closed, and then the rest of a text goes to the buffer. -/
private theorem exec_drain {r : Reader} {pipe : Nat} {p₁ : Pump} {w₁ : World}
    (leads : w.pipeOf? r.descriptor = some pipe) {reading : Except Failure Unit}
    (looped : (Pump.drainLoop r ((w.content pipe).length + 1)).exec p w = (reading, p₁, w₁)) :
    (Pump.drain r).exec p w = (do
      Sim.ofExcept (do ((Pump.closeReader r).exec w₁).1; reading)
      Pump.writeTail : Owning Pump Unit).exec p₁ ((Pump.closeReader r).exec w₁).2 := by
  unfold Pump.drain
  simp only [Owning.exec_bind, Owning.exec_lift, Sim.exec_world, Owning.exec_attempt,
    Reader.content_of leads, looped, Sim.exec_ofExcept]
  generalize (Pump.closeReader r).exec w₁ = closed
  obtain ⟨closing, w₂⟩ := closed
  cases closing <;> rfl

/-- The pump drains its pipe, and finishes. -/
private theorem Drains.drain (drains : Drains R w p i) (setting : Setting R)
    (ran : (Pump.drain i.reader).exec p w = (outcome, p', w')) :
    ∃ i', R w' ⟨{ p' with error := p'.verdict outcome, thread := .finished }, .done outcome, some i'⟩ := by
  generalize looped : (Pump.drainLoop i.reader ((w.content i.pipe).length + 1)).exec p w = result
  obtain ⟨reading, p₁, w₁⟩ := result
  obtain ⟨b, closing⟩ := drains.drainLoop setting (Nat.lt_succ_self _) looped
  rw [exec_drain drains.leads looped] at ran
  generalize closed : (Pump.closeReader i.reader).exec w₁ = result at ran
  obtain ⟨closes, w₂⟩ := result
  have keeps₂ : w₁.Keeps w₂ := by
    rcases Pump.closeReader_cases i.reader w₁ with ⟨-, same⟩ | same | same
    · cases closed.symm.trans same
      exact .refl _
    · cases closed.symm.trans same
      exact World.keeps_shut _
    · cases closed.symm.trans same
      exact .refl _
  have ending := setting.thread keeps₂ (.closes (i := i.take b) rfl rfl closed) closing
  have keeps' : w₂.Keeps w' := by
    rw [Owning.exec_bind, Owning.exec_lift, Sim.exec_ofExcept] at ran
    obtain ⟨_, memory, tail, -⟩ := Pump.exec_writeTail_wrote p₁ w₂
    generalize (do closes; reading : Except Failure Unit) = stop at ran
    cases stop with
    | error e =>
      cases ran
      exact .refl _
    | ok _ =>
      cases tail.symm.trans ran
      exact keeps_memory w₂ memory
  exact ⟨_, setting.thread keeps' (.finishes rfl ran) ending⟩

/-- The thread of a drain runs when nobody writes to its pipe any more. -/
theorem Setting.run {r : Reader} {pipe : Nat} (setting : Setting R)
    (reached : R w ⟨{ p with pipeEnd := .gone }, .reading, some { reader := r, pipe }⟩)
    (isDrain : p.direction = .drain) (ends : Pump.readerOf p.pipeEnd = some r) (isOpen : r.closed = false)
    (leads : w.pipeOf? r.descriptor = some pipe) (atEnd : p.inputEnded w = true) :
    ∃ p' w' i', Pump.run.exec p w = (.ok (), p', w') ∧ R w' ⟨p', .done (Pump.move.exec p w).1, some i'⟩ := by
  have noWriter : w.hasWriter pipe = false := by
    rw [Pump.inputEnded, ends] at atEnd
    dsimp only at atEnd
    rwa [Reader.atEnd_of leads, Bool.not_eq_true'] at atEnd
  obtain ⟨line, ran⟩ := Pump.exec_run p w
  rw [Pump.exec_move_of_drain isDrain ends] at ran ⊢
  generalize drained : (Pump.drain r).exec { p with pipeEnd := .gone } w = result at ran ⊢
  obtain ⟨outcome, p₁, w₁⟩ := result
  obtain ⟨i', done⟩ := Drains.drain ⟨reached, isOpen, leads, noWriter⟩ setting drained
  have logged : World.Elsewhere (fun _ => True) w₁ { w₁ with log := line :: w₁.log } :=
    ⟨rfl, fun _ _ => rfl, Nat.le_refl _, fun _ _ _ member _ => member⟩
  exact ⟨_, _, i', ran, setting.rests (w := w₁) (World.keeps_of_same rfl rfl rfl) logged rfl done⟩

/-- To wait for a drain is to let it finish, or to give up when time is over. -/
theorem Setting.join {r : Reader} {pipe : Nat} {limit : Option Time} (setting : Setting R)
    (reached : R w ⟨{ p with pipeEnd := .gone }, .reading, some { reader := r, pipe }⟩)
    (running : p.thread = .running) (isDrain : p.direction = .drain) (ends : Pump.readerOf p.pipeEnd = some r)
    (isOpen : r.closed = false) (leads : w.pipeOf? r.descriptor = some pipe)
    (ran : (Pump.join limit).exec p w = (.ok (), p', w')) :
    (∃ w₁ entries i', (w.emit (.joined p.threadName limit)).Plays w₁ entries ∧
        R w' ⟨p', .done (Pump.move.exec p w₁).1, some i'⟩) ∨
      p' = p ∧ limit.isSome ∧ R w' ⟨{ p with pipeEnd := .gone }, .reading, some { reader := r, pipe }⟩ := by
  unfold Pump.join at ran
  rw [Owning.exec_bind, Owning.exec_own] at ran
  simp only [running] at ran
  obtain ⟨_, w₁, emitted, ran⟩ := Owning.lift_bind_ok ran
  cases emitted
  obtain ⟨ended, w₁, waited, ran⟩ := Owning.lift_bind_ok ran
  obtain ⟨outcome, w₂, entries, same, plays, holds⟩ :=
    Sim.exec_runUntil p.inputEnded limit (w.emit (.joined p.threadName limit))
  cases waited.symm.trans same
  have told : World.Elsewhere (fun _ => True) w (w.emit (.joined p.threadName limit)) :=
    ⟨rfl, fun _ _ => rfl, Nat.le_refl _, fun _ _ _ member _ => member⟩
  have there := setting.plays plays (setting.rests (w := w) (World.keeps_of_same rfl rfl rfl) told rfl reached)
  cases ended with
  | true =>
    obtain ⟨p₁, w₂, i', ranThread, done⟩ :=
      setting.run there isDrain ends isOpen (plays.pipeOf?.trans leads) (holds rfl)
    rw [if_pos rfl, ranThread] at ran
    cases ran
    exact .inl ⟨_, entries, i', plays, done⟩
  | false =>
    rw [if_neg Bool.false_ne_true, Owning.exec_pure] at ran
    cases ran
    refine .inr ⟨rfl, ?_, there⟩
    cases limit with
    | some _ => rfl
    | none => exact nomatch (Sim.runUntil_ok waited).1

end Strand

end Pipework
