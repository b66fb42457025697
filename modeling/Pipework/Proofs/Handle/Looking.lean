import Pipework.Handle
import Pipework.Proofs.System.Processes

/-!
# Steps that watch processes and end them

To poll processes, to wait for them and to send them signals is to let processes act, to leave word of the call, to
look at one, and to end one that lives. What none of these four can undo holds after each of these steps as before
it (`World.Watchable`).
-/

namespace Pipework

open World

/-- What holds whatever processes do, whichever of them is looked at, and whichever is ended. -/
structure World.Watchable (P : World → Prop) : Prop where
  plays : ∀ {w w' entries}, P w → w.Plays w' entries → P w'
  called : ∀ {w e}, P w → e.isControl → e.isExit = false → P (w.emit e)
  notice : ∀ {w} pid, P w → P (w.notice pid)
  ended : ∀ {w pid}, P w → w.exit? pid = some none → ∀ code, P (w.endProcess pid code)

namespace World.Watchable

variable {P : World → Prop} (watchable : Watchable P)
include watchable

theorem settle : Pipework.settle.Preserves P := by
  intro w holds
  obtain ⟨_, plays⟩ := settle_plays w
  exact watchable.plays holds plays

theorem runUntil (condition : World → Bool) (limit : Option Time) :
    (Pipework.runUntil condition limit).Preserves P := by
  intro w holds
  obtain ⟨_, _, _, ran, plays, -⟩ := Sim.exec_runUntil condition limit w
  rw [ran]
  exact watchable.plays holds plays

omit watchable in
theorem seenCode (pid : Nat) : (Sim.seenCode pid).Preserves P := by
  intro w holds
  rw [Sim.exec_seenCode]
  exact holds

theorem look (pid : Nat) : (Sim.look pid).Preserves P := by
  intro w holds
  rw [Sim.exec_look]
  exact watchable.notice pid holds

theorem poll (pid : Nat) : (Sim.poll pid).Preserves P := watchable.settle.bind fun _ => watchable.look pid

theorem wait (pid : Nat) (limit : Option Time) : (Sim.wait pid limit).Preserves P := by
  refine .bind (fun w holds => watchable.called holds rfl rfl) fun _ => .bind (watchable.runUntil _ _) fun ended => ?_
  split
  · exact .bind (watchable.look pid) fun _ => .pure ()
  · exact .bind .get fun _ => .throw _

theorem endNow (pid signal : Nat) : (Sim.endNow pid signal).Preserves P := by
  intro w holds
  rw [Sim.endNow, Sim.exec_modify]
  dsimp only
  split
  · exact holds
  · next alive =>
    have running : w.exit? pid = some none := by
      unfold Sim.hasEnded at alive
      cases found : w.process? pid with
      | none => simp [found] at alive
      | some p => exact exit?_of_alive found (by simpa [found] using alive)
    exact watchable.ended holds running _

theorem kill (pid : Nat) : (Sim.kill pid).Preserves P :=
  .bind (fun _ holds => watchable.called holds rfl rfl) fun _ => watchable.endNow _ _

theorem terminate (pid : Nat) : (Sim.terminate pid).Preserves P := by
  refine .bind (fun _ holds => watchable.called holds rfl rfl) fun _ => .bind .get fun w => ?_
  split
  · split
    · exact .pure ()
    · exact watchable.endNow _ _
  · exact .pure ()

theorem allEnded (pids : List Nat) : (Handle.allEnded pids).Preserves P := by
  induction pids with
  | nil => exact .pure _
  | cons pid rest ih =>
    refine .bind (watchable.poll pid) fun code => ?_
    split
    · exact .pure _
    · exact ih

theorem eachAlive {act : Nat → Sim Unit} (keeps : ∀ pid, (act pid).Preserves P) (pids : List Nat) :
    (Handle.eachAlive act pids).Preserves P := by
  induction pids with
  | nil => exact .pure _
  | cons pid rest ih =>
    refine .bind (watchable.poll pid) fun code => ?_
    split
    · exact .bind (keeps pid) fun _ => ih
    · exact ih

omit watchable in
theorem remaining (deadline : Option Time) : (Handle.remaining deadline).Preserves P := .bind .get fun _ => .pure _

theorem waitAll (deadline : Option Time) (pids : List Nat) : (Handle.waitAll deadline pids).Preserves P := by
  induction pids with
  | nil => exact .pure _
  | cons pid rest ih => exact .bind (remaining deadline) fun _ => .bind (watchable.wait _ _) fun _ => ih

theorem unfinished (pids : List Nat) : (Handle.unfinished pids).Preserves P := by
  induction pids with
  | nil => exact .pure _
  | cons pid rest ih =>
    refine .bind (seenCode pid) fun code => ?_
    split
    · exact .bind (.pure _) fun _ => .bind ih fun _ => .pure _
    · exact .bind (watchable.poll pid) fun _ => .bind (.pure _) fun _ => .bind ih fun _ => .pure _

end World.Watchable

end Pipework
