import Pipework.Proofs.Exchange.Draining
import Pipework.Proofs.Handle.Endings
import Pipework.Proofs.System.Deadlines

/-!
# Steps that take no time

Closing the ends of a handle takes no time, and nobody is waited for in it. To wait for a process that has ended, or
for a pump that has got all it will get, takes no time either. So closing a whole handle is a matter of no time when its
processes have ended and its pumps have nothing more to wait for (`Handle.brisk_close`).
-/

namespace Pipework

open World

variable {σ α : Type} {w₀ w : World} {r : Reader}

/-- A step of the system that takes no time, waits for nothing and sends no signal. -/
abbrev Sim.Brisk (w₀ : World) (m : Sim α) : Prop := m.Preserves w₀.Instant

/-- A step with a state of its own that takes no time, waits for nothing and sends no signal. -/
abbrev Owning.Brisk (w₀ : World) (m : Owning σ α) : Prop := m.Preserves fun _ w => w₀.Instant w

/-! ## Giving up ends -/

namespace Sim.Brisk

theorem emit {e : Event} (silent : e.Silent) : (emit e).Brisk w₀ := fun w instant => instant.trans (.emit silent w)

theorem onMemory (f : Memory → Except Failure α × Memory) : (Pump.onMemory f).Brisk w₀ := by
  intro w instant
  rw [Pump.exec_onMemory]
  exact instant.trans (.of_same rfl rfl rfl rfl rfl rfl)

theorem close (descriptor : Nat) : (Sim.close descriptor).Brisk w₀ := by
  intro w instant
  by_cases isOpen : descriptor ∈ w.descriptors.map (·.1)
  · rw [exec_close isOpen]
    exact instant.trans (.shut w descriptor)
  · rw [exec_close_of_not_open isOpen]
    exact instant

/-- What an owner does is a step of the system for all others. -/
theorem runOn {m : Owning σ α} (brisk : m.Brisk w₀) (s : σ) :
    (liftM (m.runOn s) : Sim (Except Failure α × σ)).Brisk w₀ := fun w => brisk s w

theorem closeReader (r : Reader) : (Pump.closeReader r).Brisk w₀ := by
  have closed : Reader.close.Brisk w₀ := by
    refine .bind .own fun s => ?_
    split
    · exact .pure _
    · exact .bind (.change fun _ _ => id) fun _ => .lift fun _ => close _
  exact .bind (runOn closed r) fun _ => .ofExcept _

end Sim.Brisk

namespace Owning.Brisk

theorem lift {m : Sim α} (brisk : m.Brisk w₀) : (liftM m : Owning σ α).Brisk w₀ := fun _ => brisk

theorem closeWriter : Writer.close.Brisk w₀ := by
  have passOn : Writer.passOn.Brisk w₀ := by
    intro r w instant
    by_cases holds : r.held = []
    · rwa [Writer.passOn_of_empty holds]
    · rw [Writer.passOn_of_held holds]
      cases delivered : w.settle.deliver? ((w.settle.channel? r.descriptor).getD .null) r.held with
      | none => exact instant.trans (.settle w)
      | some after => exact (instant.trans (.settle w)).trans (.deliver? delivered)
  refine .bind .own fun r => ?_
  split
  · exact .pure _
  · exact .bind passOn.attempt fun _ => .bind (lift (.close _)) fun _ =>
      .bind (.change fun _ _ => id) fun _ => lift (.ofExcept _)

theorem feed (r : Writer) : (Pump.feed r).Brisk w₀ := by
  intro p w instant
  obtain ⟨memory, same⟩ := (Pump.Holding.feedAll (p, r) w).memory
  have fed : w₀.Instant (Pump.feedAll.exec (p, r) w).2.2 := by
    rw [same]
    exact instant.trans (.of_same rfl rfl rfl rfl rfl rfl)
  rw [Pump.exec_feed rfl rfl]
  exact closeWriter _ _ fed

/-- Closing an end of a handle. -/
theorem closeEndpoint (s : Stream) : (Handle.closeEndpoint s).Brisk w₀ := by
  have dropped : (Handle.dropEndpoint s).Brisk w₀ := by
    cases s with
    | stdin =>
      refine .bind .own fun h => .bind (.change fun _ _ => id) fun _ => ?_
      split
      · exact .pure _
      · exact .bind (lift (.runOn closeWriter _)) fun _ => lift (.ofExcept _)
    | stdout | stderr =>
      refine .bind .own fun h => .bind (.change fun _ _ => id) fun _ => ?_
      split
      · exact .pure _
      · exact lift (.closeReader _)
  have said (level : Level) (text : Text) : (Handle.say level text).Brisk w₀ :=
    .bind .own fun _ => lift fun _ instant => instant.trans (.of_same rfl rfl rfl rfl rfl rfl)
  refine .bind dropped.attempt fun outcome => ?_
  split
  · exact .pure _
  · split
    on_goal 1 => refine .bind (.throw _) fun _ => ?_
    all_goals
      refine .bind .own fun h => ?_
      split <;> exact .bind (said _ _) fun _ => .pure _

end Owning.Brisk

/-! ## Waiting for what has come -/

namespace Sim.Brisk

/-- What lasts is not waited for. -/
theorem runUntil {condition : World → Bool} (lasts : ∀ w, w₀.Instant w → condition w = true) :
    (runUntil condition none).Brisk w₀ := by
  intro w instant
  have settled := instant.trans (.settle w)
  rw [exec_runUntil_of_settled (lasts _ settled)]
  exact settled

/-- Neither is a process that has ended. -/
theorem wait {pid : Nat} (ended : hasEnded pid w₀ = true) : (Sim.wait pid none).Brisk w₀ := by
  intro w instant
  have settled := (instant.trans (.emit ⟨rfl, rfl⟩ w)).trans (.settle (w.emit (.waited pid none)))
  rw [exec_wait_of_settled (settled.gone pid ended)]
  exact settled.trans (.notice _ pid)

theorem waitAll {pids : List Nat} (ended : ∀ pid ∈ pids, hasEnded pid w₀ = true) :
    (Handle.waitAll none pids).Brisk w₀ := by
  induction pids with
  | nil => exact .pure _
  | cons pid rest ih =>
    have step : Handle.waitAll none (pid :: rest) = (do Sim.wait pid none; Handle.waitAll none rest) := rfl
    rw [step]
    exact .bind (wait (ended pid List.mem_cons_self)) fun _ =>
      ih fun q member => ended q (List.mem_cons_of_mem _ member)

/-- A pipe that has ended is read without waiting. -/
theorem readUpTo (ended : r.atEnd w₀ = true) (most : Int) : (r.readUpTo most).Brisk w₀ := by
  have checked : r.checkOpen.Brisk w₀ := by
    unfold Reader.checkOpen
    split
    · exact .throw _
    · exact .pure _
  have taken (count : Nat) : (r.take count).Brisk w₀ := by
    intro w instant
    cases leads : w.pipeOf? r.descriptor with
    | none =>
      simp only [Reader.take, exec_bind, exec_get, leads]
      exact instant
    | some pipe =>
      rw [Reader.exec_take leads]
      exact instant.trans (.of_same rfl rfl rfl rfl rfl (List.length_set ..))
  have reading (condition : World → Bool) (count : World → Nat) (holds : ∀ w, r.atEnd w = true → condition w = true) :
      (do r.checkOpen; let _ ← Pipework.runUntil condition none; r.take (count (← get)) : Sim Bytes).Brisk w₀ :=
    .bind checked fun _ => .bind (runUntil fun w instant => holds w (instant.atEnd ended)) fun _ => .bind .get fun v =>
      taken _
  unfold Reader.readUpTo
  split
  · exact reading _ (fun w => (r.content w).length) fun _ => id
  · exact reading _ (fun _ => most.toNat) fun _ atEnd => by rw [atEnd, Bool.or_true]

end Sim.Brisk

namespace Pump

variable {p : Pump}

/-- Neither is it drained with waiting. -/
theorem brisk_drain (ended : r.atEnd w₀ = true) : (drain r).Brisk w₀ := by
  have fillable : Fillable fun _ w => w₀.Instant w :=
    { moves := fun _ _ _ _ => id
      aside := fun _ _ _ _ instant => instant.trans (.of_same rfl rfl rfl rfl rfl rfl) }
  exact .bind (.lift fun _ => .get) fun w =>
    .bind (Owning.Preserves.attempt (fillable.drainLoop (fun most _ => Sim.Brisk.readUpTo ended most) _)) fun outcome =>
      .bind (.lift fun _ => Sim.Brisk.closeReader r) fun _ => .bind (.lift fun _ => .ofExcept _) fun _ =>
        fillable.writeTail

/-- A pump that has got all it will get is done at once. -/
theorem brisk_run (ended : p.inputEnded w₀ = true) (instant : w₀.Instant w) : w₀.Instant (run.exec p w).2.2 := by
  have moved : w₀.Instant (move.exec p w).2.2 := by
    unfold move
    rw [Owning.exec_bind, Owning.exec_own]
    dsimp only
    rw [Owning.exec_bind, Owning.exec_change]
    dsimp only
    cases p.direction with
    | drain =>
      unfold inputEnded at ended
      cases ends : readerOf p.pipeEnd with
      | none => exact instant
      | some r =>
        rw [ends] at ended
        exact brisk_drain ended _ w instant
    | feed =>
      cases writerOf p.pipeEnd with
      | none => exact instant
      | some r => exact Owning.Brisk.feed r _ w instant
  obtain ⟨line, ran⟩ := exec_run p w
  rw [ran]
  exact moved.trans (.of_same rfl rfl rfl rfl rfl rfl)

/-- A pump that runs has got all it will get. -/
def Done (w : World) (p : Pump) : Prop := p.thread = .running → p.inputEnded w = true

/-- Such a pump is not waited for. -/
theorem brisk_join : (join none).Preserves fun p w => w₀.Instant w ∧ p.Done w₀ := by
  rintro p w ⟨instant, done⟩
  have called := instant.trans (.emit (e := .joined p.threadName none) ⟨rfl, rfl⟩ w)
  unfold join
  rw [Owning.exec_bind, Owning.exec_own]
  dsimp only
  cases runs : p.thread with
  | unstarted => exact ⟨instant, done⟩
  | finished => exact ⟨called, done⟩
  | running =>
    have settled := called.trans (.settle _)
    have ended : p.inputEnded (w.emit (.joined p.threadName none)).settle = true := by
      have ended := done runs
      unfold inputEnded at ended ⊢
      split
      · next r ends => exact settled.atEnd (by rwa [ends] at ended)
      · rfl
    dsimp only
    rw [Owning.exec_bind, Owning.exec_lift, Sim.exec_emit]
    dsimp only
    rw [Owning.exec_bind, Owning.exec_lift, Sim.exec_runUntil_of_settled ended]
    have ran := brisk_run (done runs) settled
    obtain ⟨line, finished⟩ := exec_run p (w.emit (.joined p.threadName none)).settle
    simp only [if_true]
    rw [finished] at ran ⊢
    exact ⟨ran, nofun⟩

end Pump

namespace Handle

/-- The processes of a handle have ended, and its pumps have nothing more to wait for. -/
structure Spent (h : Handle) (w : World) : Prop where
  ended : ∀ pid ∈ h.pids, Sim.hasEnded pid w = true
  done : ∀ p ∈ h.pumps, p.Done w

/-- The pumps of such a handle are not waited for. -/
theorem brisk_eachPump : (eachPump (Pump.join none)).Preserves fun h w => w₀.Instant w ∧ h.Spent w₀ := by
  have each (pumps : List Pump) {w : World} (instant : w₀.Instant w) (done : ∀ p ∈ pumps, p.Done w₀) :
      w₀.Instant (Id.run ((onPumps (Pump.join none) pumps).run w)).2 ∧
        ∀ p ∈ (Id.run ((onPumps (Pump.join none) pumps).run w)).1.2, p.Done w₀ := by
    induction pumps generalizing w with
    | nil => exact ⟨instant, done⟩
    | cons p rest ih =>
      obtain ⟨joined, mine⟩ := Pump.brisk_join p w ⟨instant, done p List.mem_cons_self⟩
      have others (q : Pump) (member : q ∈ rest) : q.Done w₀ := done q (List.mem_cons_of_mem _ member)
      rw [run_onPumps_cons]
      generalize (Pump.join none).exec p w = result at joined mine
      obtain ⟨outcome, p', w₁⟩ := result
      cases outcome with
      | error e => exact ⟨joined, List.forall_mem_cons.mpr ⟨mine, others⟩⟩
      | ok _ =>
        obtain ⟨instant, later⟩ := ih joined others
        exact ⟨instant, List.forall_mem_cons.mpr ⟨mine, later⟩⟩
  rintro h w ⟨instant, spent⟩
  rw [exec_eachPump]
  obtain ⟨joined, later⟩ := each h.pumps instant spent.done
  exact ⟨joined, spent.ended, later⟩

/-- **Closing such a handle takes no time**, and waits for nothing. -/
theorem brisk_close (discards : Bool) : (close discards).Preserves fun h w => w₀.Instant w ∧ h.Spent w₀ := by
  have step {α : Type} {m : Sim α} (brisk : m.Brisk w₀) :
      (liftM m : Owning Handle α).Preserves fun h w => w₀.Instant w ∧ h.Spent w₀ :=
    fun h w holds => ⟨brisk w holds.1, holds.2⟩
  have ends (s : Stream) : (closeEndpoint s).Preserves fun h w => w₀.Instant w ∧ h.Spent w₀ := by
    rintro h w ⟨instant, spent⟩
    refine ⟨Owning.Brisk.closeEndpoint s h w instant, ?_⟩
    rw [closeEndpoint_handle, dropEndpoint_handle]
    cases s <;> exact ⟨spent.ended, spent.done⟩
  have raises (e : Option Failure) : (raise? e).Brisk w₀ := by
    cases e with
    | none => exact .pure ()
    | some e => exact .throw e
  have told : statuses.Preserves fun h w => w₀.Instant w ∧ h.Spent w₀ :=
    .bind .own fun _ => .bind (step .get) fun _ => .pure _
  refine .bind (ends _) fun _ => .bind (ends _) fun _ => .bind (ends _) fun _ => ?_
  intro h w holds
  have waited : (liftM (waitAll none h.pids) : Owning Handle Unit).Preserves fun h w => w₀.Instant w ∧ h.Spent w₀ :=
    step (.waitAll holds.2.ended)
  rw [Owning.exec_bind, Owning.exec_own]
  refine Owning.Preserves.bind waited (fun _ => .bind brisk_eachPump fun _ => ?_) h w holds
  split
  · exact .bind (step (raises _)) fun _ => told
  · exact .bind (.pure PUnit.unit) fun _ => told

end Handle

end Pipework
