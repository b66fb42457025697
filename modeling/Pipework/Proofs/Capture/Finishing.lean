import Pipework.Proofs.Capture.Blindness
import Pipework.Proofs.Capture.Settling

/-!
# Finishing a handle does not look back

Every step with which a handle is finished is blind, down to the pumps that it waits for. So it makes no
difference whether the reader of stdout is closed before that, or in the course of it
(`Handle.Ready.finish_without_stdout`).
-/

namespace Pipework

open World Owning.Blind

/-! ## Writers -/

namespace Writer

theorem blind_write (data : Bytes) : (write data).Blind := by
  refine bind (bind own fun w => ?_) fun _ => bind (change _) fun _ => pure _
  split
  · exact throw _
  · exact pure _

theorem blind_passOn : passOn.Blind := by
  intro r w w' alike
  by_cases holds : r.held = []
  · rw [passOn_of_empty holds, passOn_of_empty holds]
    exact ⟨rfl, rfl, alike⟩
  have settled : w.settle.Alike w'.settle := alike.settle
  rw [passOn_of_held holds, passOn_of_held holds, settled.channel?]
  rcases settled.deliver? ((w.settle.channel? r.descriptor).getD .null) r.held with
    ⟨none, none'⟩ | ⟨v, v', some, some', after⟩
  · rw [none, none']
    exact ⟨rfl, rfl, settled⟩
  · rw [some, some']
    exact ⟨rfl, rfl, after⟩

theorem blind_close : close.Blind := by
  refine bind own fun s => ?_
  split
  · exact pure _
  · exact bind (attempt blind_passOn) fun _ => bind (lift (.close _)) fun _ => bind (change _) fun _ =>
      ofExcept _

end Writer

theorem Reader.blind_close : Reader.close.Blind := by
  refine bind own fun s => ?_
  split
  · exact pure _
  · exact bind (change _) fun _ => lift (.close _)

namespace Pump

/-! ## Pumps -/

theorem blind_closeReader (r : Reader) : (closeReader r).Blind :=
  .bind (.runOn Reader.blind_close r) fun _ => .ofExcept _

theorem blind_theDecoder : theDecoder.Blind := by
  refine bind own fun p => ?_
  split
  · exact pure _
  · exact bind (ofExcept _) fun _ => pure _

theorem blind_writeBuffer (chunk : Bytes) : (writeBuffer chunk).Blind := by
  refine bind own fun p => ?_
  split
  · split
    · exact bind blind_theDecoder fun _ => bind (change _) fun _ => lift (.onMemory _)
    · exact bind blind_theDecoder fun _ => bind (change _) fun _ => lift (.onMemory _)
    · exact lift (.onMemory _)
  · exact throw _

theorem blind_drainLoop (r : Reader) (chunks : Nat) : (drainLoop r chunks).Blind := by
  induction chunks with
  | zero => exact pure _
  | succ chunks ih =>
    refine bind own fun p => bind (lift (.readUpTo r _)) fun chunk => ?_
    split
    · exact pure _
    · exact bind (blind_writeBuffer chunk) fun _ => bind (change _) fun _ => ih

theorem blind_writeTail : writeTail.Blind := by
  refine bind own fun p => ?_
  dsimp only
  split
  · split
    · exact pure _
    · exact lift (.onMemory _)
  · exact pure _

theorem blind_drain (r : Reader) : (drain r).Blind :=
  see (fun _ _ alike => by rw [alike.reader_content r]) fun _ =>
    bind (attempt (blind_drainLoop r _)) fun _ => bind (lift (blind_closeReader r)) fun _ =>
      bind (ofExcept _) fun _ => blind_writeTail

theorem blind_writeChunk (chunk : Bytes) : (writeChunk chunk).Blind :=
  bind (onPart (Writer.blind_write chunk) _ _) fun _ => onPart (change _) _ _

theorem blind_feedBytes (b : Bytes) : (feedBytes b).Blind := by
  have chunks (l : List Bytes) : (l.forM writeChunk).Blind := by
    induction l with
    | nil => exact pure _
    | cons chunk rest ih => exact bind (blind_writeChunk chunk) fun _ => ih
  refine bind own fun s => ?_
  split
  · exact throw _
  · dsimp only
    split
    · refine bind (throw _) fun _ => ?_
      split
      · exact chunks _
      · exact pure _
    · split
      · exact chunks _
      · exact pure _

theorem blind_feedObject (ref : ObjectRef) (chunks : Nat) : (feedObject ref chunks).Blind := by
  induction chunks with
  | zero => exact pure _
  | succ chunks ih =>
    refine bind own fun s => bind (lift (.onMemory _)) fun chunk => ?_
    split
    · exact pure _
    · exact pure _
    · exact bind (blind_writeChunk _) fun _ => ih
    · exact bind (ofExcept _) fun _ => bind (blind_writeChunk _) fun _ => ih

theorem blind_feedAll : feedAll.Blind := by
  refine bind own fun s => ?_
  dsimp only
  split
  · exact bind (ofExcept _) fun b => blind_feedBytes b
  · exact blind_feedBytes _
  · exact blind_feedBytes _
  · next ref _ =>
    refine see (fun w w' alike => ?_) fun w => ?_
    · obtain ⟨_, _, rfl, -⟩ := alike_iff.mp alike
      rfl
    · split
      · exact blind_feedBytes _
      · exact blind_feedObject ref _
  · exact throw _

theorem blind_feed (w : Writer) : (feed w).Blind :=
  bind own fun _ => bind (runOn blind_feedAll _) fun _ => bind (change _) fun _ =>
    bind (runOn Writer.blind_close _) fun _ => bind (ofExcept _) fun _ => ofExcept _

theorem blind_move : move.Blind := by
  refine bind own fun p => bind (change _) fun _ => ?_
  split
  · split
    · exact blind_drain _
    · exact throw _
  · split
    · exact blind_feed _
    · exact throw _

theorem blind_say (level : Level) (text : Text) : (say level text).Blind :=
  bind own fun _ => lift (.note _ _ _)

theorem blind_run : run.Blind := by
  refine bind (attempt blind_move) fun outcome => bind own fun p => ?_
  split
  · exact bind (blind_say _ _) fun _ => change _
  · split
    · split
      · exact bind (blind_say _ _) fun _ => change _
      · exact bind (blind_say _ _) fun _ => bind (change _) fun _ => change _
    · exact bind (blind_say _ _) fun _ => bind (change _) fun _ => change _

theorem blind_join (limit : Option Time) : (join limit).Blind := by
  refine bind own fun p => ?_
  split
  · exact pure _
  · exact lift (.emit _)
  · refine bind (lift (.emit _)) fun _ => bind (lift (.runUntil (fun w w' alike => ?_) _)) fun ended => ?_
    · unfold inputEnded
      split
      · exact alike.atEnd _
      · rfl
    · split
      · exact blind_run
      · exact pure _

end Pump

namespace Handle

/-! ## Handles -/

theorem blind_waitAll (deadline : Option Time) (pids : List Nat) : (waitAll deadline pids).Blind := by
  induction pids with
  | nil => exact .pure _
  | cons pid rest ih =>
    refine .bind (.see (fun w w' alike => ?_) fun _ => .pure _) fun _ => .bind (.wait pid _) fun _ => ih
    obtain ⟨_, _, rfl, -⟩ := alike_iff.mp alike
    rfl

theorem blind_eachPump {step : Owning Pump Unit} (blind : step.Blind) : (eachPump step).Blind := by
  have each (pumps : List Pump) (w w' : World) (alike : w.Alike w') :
      (Id.run ((onPumps step pumps).run w')).1 = (Id.run ((onPumps step pumps).run w)).1 ∧
        (Id.run ((onPumps step pumps).run w)).2.Alike (Id.run ((onPumps step pumps).run w')).2 := by
    induction pumps generalizing w w' with
    | nil => exact ⟨rfl, alike⟩
    | cons p rest ih =>
      obtain ⟨outcome, state, after⟩ := blind p w w' alike
      rw [run_onPumps_cons, run_onPumps_cons]
      generalize step.exec p w = result at outcome state after
      generalize step.exec p w' = result' at outcome state after
      obtain ⟨_, p₁, w₁⟩ := result
      obtain ⟨_, p₁', w₁'⟩ := result'
      cases outcome
      cases state
      split
      · next same =>
        cases same
        exact ⟨rfl, after⟩
      · next same =>
        cases same
        obtain ⟨others, later⟩ := ih w₁ w₁' after
        dsimp only
        rw [others]
        exact ⟨rfl, later⟩
  intro h w w' alike
  obtain ⟨same, after⟩ := each h.pumps w w' alike
  rw [exec_eachPump, exec_eachPump, same]
  exact ⟨rfl, rfl, after⟩

theorem blind_raise? (e : Option Failure) : (liftM (raise? e) : Owning Handle Unit).Blind := by
  refine lift ?_
  unfold raise?
  split
  · exact .throw _
  · exact .pure _

theorem blind_statuses : statuses.Blind := by
  refine bind own fun h => see (fun w w' alike => ?_) fun _ => pure _
  obtain ⟨_, _, rfl, -⟩ := alike_iff.mp alike
  rfl

theorem blind_say (level : Level) (text : Text) : (say level text).Blind := bind own fun _ => lift (.note _ _ _)

theorem blind_dropEndpoint (s : Stream) : (dropEndpoint s).Blind := by
  cases s with
  | stdin =>
    refine bind own fun h => bind (change _) fun _ => ?_
    split
    · exact pure _
    · exact bind (runOn Writer.blind_close _) fun _ => ofExcept _
  | stdout | stderr =>
    refine bind own fun h => bind (change _) fun _ => ?_
    split
    · exact pure _
    · exact lift (Pump.blind_closeReader _)

theorem blind_closeEndpoint (s : Stream) : (closeEndpoint s).Blind := by
  refine bind (attempt (blind_dropEndpoint s)) fun outcome => ?_
  split
  · exact pure _
  · have rest (e : Failure) : (do
        if (← Owning.own).settings.ignoresBrokenPipe then
          say .debug (s.text ++ " endpoint: reader already gone")
          return none
        else
          say .error (s.text ++ " endpoint: buffered data not delivered, reader already gone")
          return some e : Owning Handle (Option Failure)).Blind := by
      refine bind own fun h => ?_
      split
      · exact bind (blind_say _ _) fun _ => pure _
      · exact bind (blind_say _ _) fun _ => pure _
    dsimp only
    split
    · exact bind (throw _) fun _ => rest _
    · exact rest _

theorem blind_awaitEnd (undelivered : Option Failure) : (awaitEnd undelivered).Blind :=
  bind own fun _ => bind (lift (blind_waitAll _ _)) fun _ => bind (blind_eachPump (Pump.blind_join _)) fun _ =>
    bind (blind_raise? _) fun _ => blind_statuses

theorem blind_check (limit : Limit) : (check limit).Blind := by
  have waits : (wait limit).Blind := by
    refine bind (blind_closeEndpoint _) fun undelivered => bind (lift ?_) fun deadline => bind own fun _ =>
      bind (lift (blind_waitAll _ _)) fun _ => bind (blind_eachPump ?_) fun _ => bind (blind_raise? _) fun _ =>
        bind own fun _ => bind (blind_raise? _) fun _ => blind_statuses
    · refine .see (fun w w' alike => ?_) fun _ => .bind (.ofExcept _) fun _ => .pure _
      obtain ⟨_, _, rfl, -⟩ := alike_iff.mp alike
      rfl
    · refine bind (lift (.see (fun w w' alike => ?_) fun _ => .pure _)) fun _ => Pump.blind_join _
      obtain ⟨_, _, rfl, -⟩ := alike_iff.mp alike
      rfl
  refine bind waits fun statuses => ?_
  dsimp only
  split
  · exact bind (blind_say _ _) fun _ => bind (throw _) fun _ => pure _
  · exact pure _

/-! ## Finishing -/

/-- What finishing a handle does when the ends of stdin and stdout are closed. -/
private def finishRest : Owning Handle Unit := do
  let stderr ← closeEndpoint .stderr
  let _ ← awaitEnd stderr
  let _ ← check endless

private theorem blind_finishRest : finishRest.Blind :=
  bind (blind_closeEndpoint _) fun _ => bind (blind_awaitEnd _) fun _ => bind (blind_check _) fun _ => pure _

variable {h h₁ h₂ : Handle} {w w' w₁ w₂ : World} {r : Reader}

private theorem exec_finish_of_closed (stdin : (closeEndpoint .stdin).exec h w = (.ok none, h₁, w₁))
    (stdout : (closeEndpoint .stdout).exec h₁ w₁ = (.ok none, h₂, w₂)) :
    Engine.finish.exec h w = finishRest.exec h₂ w₂ := by
  have closes : (Handle.close false).exec h w
      = (do awaitEnd (← closeEndpoint .stderr) : Owning Handle (List ProcessStatus)).exec h₂ w₂ := by
    simp only [Handle.close, Owning.exec_bind, stdin, stdout]
    generalize (closeEndpoint .stderr).exec h₂ w₂ = result
    obtain ⟨outcome, h₃, w₃⟩ := result
    cases outcome with
    | error e => rfl
    | ok stderr => cases stderr <;> simp [awaitEnd, Owning.exec_bind]
  rw [Engine.finish, Owning.exec_bind, closes, ← Owning.exec_bind, bind_assoc]
  rfl

private theorem exec_closeStdin {q : Writer} (stdin : h.stdin = some q) (isOpen : q.closed = false)
    (empty : q.held = []) (known : q.descriptor ∈ w.descriptors.map (·.1)) :
    (closeEndpoint .stdin).exec h w = (.ok none, h.without .stdin, w.shut q.descriptor) := by
  have closed := Writer.exec_close_of_passOn isOpen (Writer.passOn_of_empty empty w) known
  simp only [closeEndpoint, dropEndpoint, Owning.exec_bind, Owning.exec_attempt, Owning.exec_own,
    Owning.exec_change, stdin, Owning.exec_liftRunOn, closed, Owning.exec_lift, Sim.exec_ofExcept]
  rfl

private theorem exec_closeStdout (output : h.stdout = some r) (isOpen : r.closed = false)
    (known : r.descriptor ∈ w.descriptors.map (·.1)) :
    (closeEndpoint .stdout).exec h w = (.ok none, h.without .stdout, w.shut r.descriptor) := by
  simp only [closeEndpoint, dropEndpoint, Owning.exec_bind, Owning.exec_attempt, Owning.exec_own,
    Owning.exec_change, output, Owning.exec_lift, Pump.closeReader, Sim.exec_bind, Sim.exec_runOn,
    Reader.exec_close isOpen known, Sim.exec_ofExcept]
  rfl

private theorem exec_closeStdout_of_none (gone : h.stdout = none) (w : World) :
    (closeEndpoint .stdout).exec h w = (.ok none, h, w) := by
  obtain ⟨graph, processes, pumps, stdin, stdout, stderr, logger, settings, output⟩ := h
  cases gone
  rfl

/-- A handle is finished the same way when the reader of its stdout has been closed before. -/
theorem Ready.finish_without_stdout (ready : h.Ready w) (output : h.stdout = some r) (isOpen : r.closed = false)
    (fresh : ∀ q, h.stdin = some q → q.held = [] ∧ q.closed = false) (alike : w.Alike w') :
    (Engine.finish.exec (h.without .stdout) (w'.shut r.descriptor)).1 = (Engine.finish.exec h w).1 := by
  have mine : (h.custody [] w).held (.endpoint .stdout) = some r.descriptor := by
    simp [custody, Custody.heldBy, holding, output, Reader.holding_of_open isOpen]
  have reader : r.descriptor ∈ w.descriptors.map (·.1) := ready.sound.isOpen _ _ mine
  cases stdin : h.stdin with
  | none =>
    have none' : (h.without .stdout).stdin = none := stdin
    rw [exec_finish_of_closed (closeEndpoint_of_none stdin w) (exec_closeStdout output isOpen reader),
      exec_finish_of_closed (closeEndpoint_of_none none' _) (exec_closeStdout_of_none rfl _)]
    exact (blind_finishRest _ _ _ (alike.shut r.descriptor)).1
  | some q =>
    obtain ⟨empty, notClosed⟩ := fresh q stdin
    have its : (h.custody [] w).held (.endpoint .stdin) = some q.descriptor := by
      simp [custody, Custody.heldBy, holding, stdin, Writer.holding_of_open notClosed]
    have writer : q.descriptor ∈ w.descriptors.map (·.1) := ready.sound.isOpen _ _ its
    have apart : q.descriptor ≠ r.descriptor := by
      intro same
      cases ready.sound.apart _ _ _ its (same ▸ mine)
    have stays {v : World} {a b : Nat} (there : a ∈ v.descriptors.map (·.1)) (apart : a ≠ b) :
        a ∈ (v.shut b).descriptors.map (·.1) := by
      obtain ⟨x, member, rfl⟩ := List.mem_map.mp there
      exact List.mem_map_of_mem (List.mem_filter.mpr ⟨member, by simpa using apart⟩)
    have output' : (h.without .stdin).stdout = some r := output
    have stdin' : (h.without .stdout).stdin = some q := stdin
    -- The ends are closed in another order, which leaves systems that are alike.
    rw [exec_finish_of_closed (exec_closeStdin stdin notClosed empty writer)
        (exec_closeStdout output' isOpen (stays reader apart.symm)),
      exec_finish_of_closed
        (exec_closeStdin stdin' notClosed empty (stays (alike.descriptors ▸ writer) apart))
        (exec_closeStdout_of_none rfl _)]
    exact (blind_finishRest _ _ _ ((Alike.shut_comm w apart).trans ((alike.shut _).shut _))).1

end Handle

end Pipework
