import Pipework.Action
import Pipework.Proofs.Custody.Life
import Pipework.Proofs.Handle.Verdicts

/-!
# Nothing but giving a handle up starts a reaper

The calls of a handle and the calls on its ends let processes act, look at some and end some, and read and write.
None of this changes what background reapers wait for (`World.Lasting.use`, `World.Lasting.onEnd`): only
`abandon` hands processes over.
-/

namespace Pipework

open World Handle

variable {w w' : World} {entries : List (Nat × Bytes)}

/-- What no call of a handle can undo while the handle is kept. -/
structure World.Lasting (P : World → Prop) : Prop extends Steady P, Watchable P

namespace World

theorem Acts.reapers (acts : w.Acts w' entries) : w'.reapers = w.reapers := by
  cases acts with
  | begins pid => rfl
  | reads found alive count => exact reapers_consume w count _
  | writes found alive own delivered => exact reapers_deliver? delivered
  | ends found alive code => rfl
  | rests t => rfl

theorem Plays.reapers (plays : w.Plays w' entries) : w'.reapers = w.reapers := by
  induction plays with
  | refl => rfl
  | tail _ acts ih => exact acts.reapers.trans ih

/-- Processes have no hand in what reapers wait for. -/
theorem lasting_reapers (reapers : List (Text × List Nat)) : Lasting fun w => w.reapers = reapers where
  plays same plays := plays.reapers.trans same
  same before _ same := same.trans before
  called same _ _ := same
  notice _ same := same
  ended same _ _ := same

namespace Lasting

variable {α : Type} {P : World → Prop} (lasting : Lasting P)
include lasting

/-! ## Calls of a handle -/

omit lasting in
private theorem raise? (e : Option Failure) :
    (liftM (Handle.raise? e) : Owning Handle Unit).Preserves fun _ => P := by
  cases e with
  | none => exact .lift fun _ => .pure ()
  | some e => exact .lift fun _ => .throw e

omit lasting in
private theorem statuses : Handle.statuses.Preserves fun _ => P :=
  .bind .own fun _ => .bind (.lift fun _ => .get) fun _ => .pure _

omit lasting in
private theorem deadlineOf (limit : Limit) :
    (liftM (Handle.deadlineOf limit) : Owning Handle (Option Time)).Preserves fun _ => P :=
  .lift fun _ => .bind .get fun _ => .bind (.ofExcept _) fun _ => .pure _

private theorem waitAll (deadline : Option Time) (pids : List Nat) :
    (liftM (Handle.waitAll deadline pids) : Owning Handle Unit).Preserves fun _ => P :=
  .lift fun _ => lasting.toWatchable.waitAll deadline pids

private theorem wait (limit : Limit) : (Handle.wait limit).Preserves fun _ => P :=
  .bind (lasting.closeEndpoint .stdin) fun _ => .bind (deadlineOf limit) fun _ => .bind .own fun _ =>
    .bind (lasting.waitAll _ _) fun _ => .bind (Steady.eachPump (lasting.joinBy _)) fun _ =>
      .bind (raise? _) fun _ => .bind .own fun _ => .bind (raise? _) fun _ => statuses

private theorem check (limit : Limit) : (Handle.check limit).Preserves fun _ => P := by
  refine .bind (lasting.wait limit) fun _ => ?_
  dsimp only
  split
  · exact .bind (lasting.say _ _) fun _ => .bind (.throw _) fun _ => .pure _
  · exact .pure _

private theorem close (discards : Bool) : (Handle.close discards).Preserves fun _ => P := by
  have ended (e : Option Failure) : (do
      if !discards then Handle.raise? e
      Handle.statuses : Owning Handle (List ProcessStatus)).Preserves fun _ => P := by
    cases discards with
    | true => exact statuses
    | false => exact .bind (raise? e) fun _ => statuses
  exact .bind (lasting.closeEndpoint _) fun _ => .bind (lasting.closeEndpoint _) fun _ =>
    .bind (lasting.closeEndpoint _) fun _ => .bind .own fun _ => .bind (lasting.waitAll _ _) fun _ =>
      .bind (Steady.eachPump (lasting.join none)) fun _ => ended _

private theorem waitOrKill (deadline : Time) (pids : List Nat) :
    (Handle.waitOrKill deadline pids).Preserves fun _ => P := by
  have waited (pid : Nat) (limit : Option Time) :
      (liftM (Sim.wait pid limit) : Owning Handle Unit).Preserves fun _ => P :=
    .lift fun _ => lasting.toWatchable.wait pid limit
  induction pids with
  | nil => exact .pure ()
  | cons pid rest ih =>
    refine .bind (.lift fun _ => .attempt (.bind (Watchable.remaining _) fun _ => lasting.toWatchable.wait _ _))
      fun outcome => ?_
    split
    · exact ih
    · exact .bind (lasting.say _ _) fun _ => .bind (.lift fun _ => lasting.toWatchable.kill _) fun _ =>
        .bind (waited _ _) fun _ => ih
    · exact .bind (.throw _) fun _ => ih

private theorem communicate (input : Option Buffer) (limit : Limit) :
    (Handle.communicate input limit).Preserves fun _ => P := by
  have conversed : (Handle.converse input).Preserves fun _ => P := fun h w holds =>
    (Beside.converse lasting.toSteady input h w ⟨rfl, holds⟩).holds
  rw [communicate_eq_converse]
  exact .bind conversed fun _ => .bind (raise? _) fun _ => .bind (lasting.wait limit) fun _ => .pure _

/-- Every use of a handle but to give it up. -/
theorem use {u : Use} (kept : u ≠ .abandon) : u.act.Preserves fun _ => P := by
  have signal {act : Nat → Sim Unit} (keeps : ∀ pid, (act pid).Preserves P) :
      (do Handle.eachAlive act (← Owning.own).pids : Owning Handle Unit).Preserves fun _ => P :=
    .bind .own fun _ => .lift fun _ => lasting.toWatchable.eachAlive keeps _
  cases u with
  | read =>
    refine .bind (.bind .own fun h => ?_) fun _ => .pure ()
    split
    · exact .throw _
    · exact .lift fun _ => lasting.readAll _
  | write data =>
    refine .bind (.bind .own fun h => ?_) fun _ => .pure ()
    split
    · exact .throw _
    · refine .bind (.lift fun _ => Steady.runOn (fun r w holds => ?_) _) fun _ =>
        .bind (.change fun _ _ => id) fun _ => .lift fun _ => .ofExcept _
      obtain ⟨_, _, wrote, -⟩ := Writer.exec_write_cases r data w
      rwa [wrote]
  | poll => exact .bind (.bind .own fun _ => .lift fun _ => lasting.toWatchable.allEnded _) fun _ => .pure ()
  | wait limit => exact .bind (lasting.wait limit) fun _ => .pure ()
  | check limit => exact .bind (lasting.check limit) fun _ => .pure ()
  | communicate input limit => exact .bind (lasting.communicate input limit) fun _ => .pure ()
  | kill => exact signal lasting.toWatchable.kill
  | terminate => exact signal lasting.toWatchable.terminate
  | stop grace =>
    exact .bind (.bind (signal lasting.toWatchable.terminate) fun _ => .bind (.lift fun _ => .get) fun _ =>
      .bind (.lift fun _ => .ofExcept _) fun _ => .bind .own fun _ => .bind (lasting.waitOrKill _ _) fun _ =>
        lasting.close false) fun _ => .pure ()
  | close discards => exact .bind (lasting.close discards) fun _ => .pure ()
  | abandon => exact absurd rfl kept

/-! ## Calls on an end -/

private theorem onReader (call : Call) : (Block.onReader call).Preserves fun _ => P := by
  refine .bind .own fun r => ?_
  cases call with
  | read most =>
    cases most with
    | none => exact .bind (.lift fun _ => lasting.readAll r) fun _ => .pure _
    | some n => exact .bind (.lift fun _ => lasting.readUpTo r n) fun _ => .pure _
  | readLine => exact .bind (.lift fun _ => lasting.readLine r) fun _ => .pure _
  | close => exact .bind lasting.shutReader fun _ => .pure _
  | isClosed | flush => exact .pure _
  | _ => exact .throw _

private theorem onWriter (call : Call) : (Block.onWriter call).Preserves fun _ => P := by
  cases call with
  | write v =>
    refine .bind (.bind .own fun r => ?_) fun _ => .bind (.lift fun _ => .bind .get fun w => ?_) fun data =>
      .bind (fun r w holds => ?_) fun _ => .pure _
    · split
      · exact .throw _
      · exact .pure _
    · split
      · exact .pure _
      · exact .throw _
    · obtain ⟨_, _, wrote, -⟩ := Writer.exec_write_cases r data w
      rwa [wrote]
  | flush =>
    refine .bind (.bind .own fun r => ?_) fun _ => .pure _
    split
    · exact .bind (.throw _) fun _ => lasting.passOn
    · exact lasting.passOn
  | close => exact .bind lasting.closeWriter fun _ => .pure _
  | isClosed => exact .bind .own fun _ => .pure _
  | _ => exact .throw _

/-- Every call on an end of a handle, which the handle may lack. -/
theorem onEnd (s : Stream) (call : Call) : (Block.onStream s call).Preserves fun _ => P := by
  have made {σ : Type} {get : Handle → Option σ} {put : σ → Handle → Handle} {m : Owning σ Answer}
      (keeps : m.Preserves fun _ => P) : (Block.onEnd get put m call).Preserves fun _ => P := by
    refine .bind .own fun h => ?_
    split
    · exact .throw _
    · exact .bind (.lift fun _ => Steady.runOn keeps _) fun _ =>
        .bind (.change fun _ _ => id) fun _ => .lift fun _ => .ofExcept _
  unfold Block.onStream
  cases s with
  | stdin => exact made (lasting.onWriter call)
  | stdout | stderr => exact made (lasting.onReader call)

end Lasting

end World

end Pipework
