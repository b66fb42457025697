import Pipework.Proofs.Handle.Endings
import Pipework.Proofs.Pump.Starting

/-!
# Waiting without an end

A call without a time limit cannot run out of time. What may fail in its waiting is only this: nothing is
left that could go on, so that it would wait for ever, or a descriptor of the handle was given up by
somebody else. Who reads waits in the same way, and fails besides only with a reader that is closed.
-/

namespace Pipework

/-- The failures of waiting without an end. -/
def Failure.Blocks (x : Failure) : Prop := x = .deadlock ∨ x = .system .badDescriptor

variable {σ α β : Type}

/-- A step of the system that only fails where waiting without an end does. -/
def Sim.Endless (m : Sim α) : Prop := ∀ w x, (m.exec w).1 = .error x → x.Blocks

/-- A step with a state of its own that only fails where waiting without an end does. -/
def Owning.Endless (m : Owning σ α) : Prop := ∀ s w x, (m.exec s w).1 = .error x → x.Blocks

namespace Sim

/-- Without a limit time is never over: the condition comes to hold, or nothing can go on. -/
theorem exec_runUntil_none (condition : World → Bool) (w : World) :
    ∃ w', (runUntil condition none).exec w = (.ok true, w') ∨
      (runUntil condition none).exec w = (.error .deadlock, w') := by
  have ends (moves : Nat) (w : World) :
      (World.runUntilWithin condition none moves w).1 = .ok true ∨
        (World.runUntilWithin condition none moves w).1 = .error .deadlock := by
    induction moves generalizing w with
    | zero => exact .inr rfl
    | succ moves ih =>
      unfold World.runUntilWithin
      dsimp only
      split
      · exact .inl rfl
      · cases w.settle.futureStarts.min? with
        | none => exact .inr rfl
        | some start => exact ih _
  refine ⟨(World.runUntilWithin condition none (w.processes.countP Process.waiting + 1) w).2, ?_⟩
  simp only [runUntil, exec_bind, exec_world, exec_setWorld, exec_ofExcept, Option.map_none]
  exact (ends _ w).imp (congrArg (·, _)) (congrArg (·, _))

end Sim

theorem Handle.exec_remaining (deadline : Option Time) (w : World) :
    (remaining deadline).exec w = (.ok (deadline.map fun d => max 0 (d - w.clock)), w) := rfl

namespace Sim.Endless

theorem bind {m : Sim α} {f : α → Sim β} (first : m.Endless) (second : ∀ a, (f a).Endless) :
    (m >>= f).Endless := by
  intro w x failed
  have blocks := first w x
  rw [exec_bind] at failed
  generalize m.exec w = result at blocks failed
  obtain ⟨outcome, w'⟩ := result
  cases outcome with
  | error y =>
    cases failed
    exact blocks rfl
  | ok a => exact second a w' x failed

theorem close (descriptor : Nat) : (Sim.close descriptor).Endless := by
  intro w x failed
  unfold Sim.close at failed
  rw [exec_bind, exec_get] at failed
  dsimp only at failed
  split at failed
  · cases failed
  · cases failed
    exact .inr rfl

theorem runUntil (condition : World → Bool) : (runUntil condition none).Endless := by
  intro w x failed
  obtain ⟨w', ended | deadlock⟩ := exec_runUntil_none condition w
  · rw [ended] at failed
    cases failed
  · rw [deadlock] at failed
    cases failed
    exact .inl rfl

/-- Without a limit a process is waited for until it has ended. -/
theorem wait (pid : Nat) : (Sim.wait pid none).Endless := by
  intro w x failed
  unfold Sim.wait at failed
  rw [exec_bind, exec_emit] at failed
  dsimp only at failed
  rw [exec_bind] at failed
  obtain ⟨w', ended | deadlock⟩ := exec_runUntil_none (hasEnded pid) (w.emit (.waited pid none))
  · rw [ended] at failed
    cases failed
  · rw [deadlock] at failed
    cases failed
    exact .inl rfl

theorem waitAll (pids : List Nat) : (Handle.waitAll none pids).Endless := by
  induction pids with
  | nil => exact fun _ _ => nofun
  | cons pid rest ih =>
    intro w x failed
    unfold Handle.waitAll at failed
    rw [exec_bind, Handle.exec_remaining] at failed
    exact (wait pid).bind (fun _ => ih) w x failed

end Sim.Endless

namespace Reader

variable {r : Reader}

theorem exec_checkOpen (isOpen : r.closed = false) (w : World) : r.checkOpen.exec w = (.ok (), w) := by
  rw [checkOpen, if_neg (by simp [isOpen]), Sim.exec_pure]

theorem exec_checkOpen_of_closed (isClosed : r.closed = true) (w : World) :
    r.checkOpen.exec w = (.error (.misuse .readOfClosed), w) := by
  rw [checkOpen, if_pos isClosed, Sim.exec_throw]

theorem exec_take_ok (r : Reader) (count : Nat) (w : World) : ∃ b, ((r.take count).exec w).1 = .ok b := by
  simp only [take, Sim.exec_bind, Sim.exec_get]
  cases w.pipeOf? r.descriptor <;> exact ⟨_, rfl⟩

/-- Reading fails where the reader is closed, or where it would wait for ever. -/
theorem error_of_readUpTo {most : Int} {w : World} {e : Failure} (failed : ((r.readUpTo most).exec w).1 = .error e) :
    e = .deadlock ∨ e = .misuse .readOfClosed := by
  have fails (condition : World → Bool) (count : World → Nat)
      (failed : ((do r.checkOpen; let _ ← runUntil condition none; r.take (count (← get)) : Sim Bytes).exec w).1
        = .error e) : e = .deadlock ∨ e = .misuse .readOfClosed := by
    cases isOpen : r.closed with
    | true =>
      rw [Sim.exec_bind, exec_checkOpen_of_closed isOpen] at failed
      cases failed
      exact .inr rfl
    | false =>
      rw [Sim.exec_bind, exec_checkOpen isOpen] at failed
      dsimp only at failed
      rw [Sim.exec_bind] at failed
      obtain ⟨w₁, waited | waited⟩ := Sim.exec_runUntil_none condition w
      · rw [waited] at failed
        dsimp only at failed
        rw [Sim.exec_bind, Sim.exec_get] at failed
        obtain ⟨b, taken⟩ := r.exec_take_ok (count w₁) w₁
        cases taken.symm.trans failed
      · rw [waited] at failed
        cases failed
        exact .inl rfl
  unfold readUpTo at failed
  split at failed
  · exact fails _ (fun w => (r.content w).length) failed
  · exact fails _ (fun _ => most.toNat) failed

end Reader

namespace Owning.Endless

theorem pure (a : α) : (pure a : Owning σ α).Endless := fun _ _ _ => nofun

theorem own : (Owning.own : Owning σ σ).Endless := fun _ _ _ => nofun

theorem lift {m : Sim α} (endless : m.Endless) : (liftM m : Owning σ α).Endless :=
  fun _ w x failed => endless w x failed

theorem bind {m : Owning σ α} {f : α → Owning σ β} (first : m.Endless)
    (second : ∀ a, (f a).Endless) : (m >>= f).Endless := by
  intro s w x failed
  have blocks := first s w x
  rw [exec_bind] at failed
  generalize m.exec s w = result at blocks failed
  obtain ⟨outcome, s', w'⟩ := result
  cases outcome with
  | error y =>
    cases failed
    exact blocks rfl
  | ok a => exact second a s' w' x failed

end Owning.Endless

namespace Handle

open Owning (Endless)

/-- What fails in a pump stays in the pump. -/
theorem endless_join : (Pump.join none).Endless := by
  refine .bind .own fun p => ?_
  split
  · exact .pure ()
  · exact .lift fun _ _ => nofun
  · refine .bind (.lift fun _ _ => nofun) fun _ => .bind (.lift (.runUntil _)) fun ended => ?_
    split
    · intro p w x failed
      obtain ⟨line, ran⟩ := Pump.exec_run p w
      rw [ran] at failed
      cases failed
    · exact .pure ()

theorem endless_eachPump {step : Owning Pump Unit} (endless : step.Endless) :
    (eachPump step).Endless := by
  have each (pumps : List Pump) (w : World) (x : Failure) :
      (Id.run ((onPumps step pumps).run w)).1.1 = .error x → x.Blocks := by
    induction pumps generalizing w with
    | nil => exact nofun
    | cons p rest ih =>
      intro failed
      have blocks := endless p w x
      rw [run_onPumps_cons] at failed
      generalize step.exec p w = result at blocks failed
      obtain ⟨outcome, p', w₁⟩ := result
      cases outcome with
      | error _ =>
        cases failed
        exact blocks rfl
      | ok _ => exact ih w₁ failed
  intro h w x failed
  exact each h.pumps w x failed

theorem endless_closeReader (r : Reader) : (Pump.closeReader r).Endless := by
  have closed : Reader.close.Endless := by
    refine .bind .own fun s => ?_
    split
    · exact .pure ()
    · exact .bind (fun _ _ _ => nofun) fun _ => .lift (.close _)
  exact fun w x failed => closed r w x failed

/-- Closing an end fails as giving it up did, or not at all. -/
theorem endless_closeEndpoint_of_drop {s : Stream} (dropped : (dropEndpoint s).Endless) :
    (closeEndpoint s).Endless := by
  intro h w x failed
  have blocks := dropped h w
  unfold closeEndpoint at failed
  rw [Owning.exec_bind, Owning.exec_attempt] at failed
  generalize (dropEndpoint s).exec h w = result at blocks failed
  obtain ⟨outcome, h', w'⟩ := result
  cases outcome with
  | ok _ => cases failed
  | error e =>
    dsimp only at failed
    split at failed
    · cases failed
      exact blocks _ rfl
    · rw [Owning.exec_bind, Owning.exec_own] at failed
      dsimp only at failed
      split at failed <;> cases failed

/-- Closing an end of reading. -/
theorem endless_closeEndpoint {s : Stream} (other : s ≠ .stdin) : (closeEndpoint s).Endless := by
  refine endless_closeEndpoint_of_drop ?_
  cases s with
  | stdin => exact absurd rfl other
  | stdout | stderr =>
    refine .bind .own fun h => .bind (fun _ _ _ => nofun) fun _ => ?_
    split
    · exact .pure ()
    · exact .lift (endless_closeReader _)

/-- A call that was given no limit, or knows none. -/
def Ending.Unlimited : Ending → Prop
  | .wait limit | .check limit => limit = endless
  | .stop _ | .close => True

theorem Ending.endless_await {c : Ending} (unlimited : c.Unlimited) : c.await.Endless := by
  have waited : (Ending.wait endless).await = (do
      waitAll none (← Owning.own).pids
      eachPump (Pump.join none)
      return none) := rfl
  have unlimitedWait : (Ending.wait endless).await.Endless := by
    rw [waited]
    exact .bind .own fun _ => .bind (.lift (.waitAll _)) fun _ =>
      .bind (endless_eachPump endless_join) fun _ => .pure _
  cases c with
  | wait limit | check limit =>
    cases unlimited
    exact unlimitedWait
  | stop _ | close =>
    exact .bind (endless_closeEndpoint (by decide)) fun _ =>
      .bind (endless_closeEndpoint (by decide)) fun _ => .bind .own fun _ =>
        .bind (.lift (.waitAll _)) fun _ => .bind (endless_eachPump endless_join) fun _ => .pure _

end Handle

end Pipework
