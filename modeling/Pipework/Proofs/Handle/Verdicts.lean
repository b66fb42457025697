import Pipework.Proofs.Handle.Undelivered
import Pipework.Proofs.Handle.Unwatched

/-!
# When a handle raises what it kept

Data that could not be delivered and the failures of pumps are kept while a call waits, and raised afterwards.
`wait` and `close` gather them in all of their waiting and then give their verdict, so that every process has
been waited for by then (`Judging.ends`). `communicate` has a verdict of its own, about its own pumps and the
end of stdin, and gives it before it waits: at that moment it has looked at no process (`Communicates.early`).
-/

namespace Pipework

open World

namespace Handle

variable {h h' : Handle} {w w' : World}

/-- A call that waits for all processes and then raises what it has kept. -/
inductive Judging where
  | wait (limit : Limit)
  | close (discardErrors : Bool)

/-- Of two failures the first is raised, wherever the second comes from. -/
theorem raise?_or {α : Type} (e : Option Failure) (other : Handle → Option Failure) (next : Owning Handle α) :
    (do raise? e; raise? (other (← Owning.own)); next : Owning Handle α) =
      (do raise? (e.or (other (← Owning.own))); next) := by
  cases e <;> rfl

namespace Judging

/-- The call itself. -/
def perform : Judging → Owning Handle (List ProcessStatus)
  | wait limit => Handle.wait limit
  | close discardErrors => Handle.close discardErrors

/-- All of a call but its verdict: it answers the failure that it has kept and will raise, if there is one. -/
def gather : Judging → Owning Handle (Option Failure)
  | wait limit => do
    let undelivered ← closeEndpoint .stdin
    let deadline ← deadlineOf limit
    waitAll deadline (← Owning.own).pids
    eachPump (joinBy deadline)
    return undelivered.or (firstError? (← Owning.own).pumps)
  | close discardErrors => do
    let stdin ← closeEndpoint .stdin
    let stdout ← closeEndpoint .stdout
    let stderr ← closeEndpoint .stderr
    waitAll none (← Owning.own).pids
    eachPump (Pump.join none)
    return if discardErrors then none else [stdin, stdout, stderr].findSome? id

/-- A call that was given no limit, or knows none. -/
def Unlimited : Judging → Prop
  | wait limit => limit = endless
  | close _ => True

/-- A call gathers, gives its verdict, and answers the statuses. -/
theorem perform_eq (j : Judging) : j.perform = (do
    let kept ← j.gather
    raise? kept
    statuses) := by
  cases j with
  | wait limit =>
    have verdict (e : Option Failure) := raise?_or e (fun h => firstError? h.pumps) statuses
    simp only [perform, Handle.wait, gather, bind_assoc, pure_bind, verdict]
  | close discardErrors =>
    have silent : (liftM (raise? none) : Owning Handle Unit) = pure () := rfl
    cases discardErrors <;> simp [perform, Handle.close, gather, silent]

end Judging

/-! ## What a step fails with -/

end Handle

/-- A step fails with nothing else. -/
def Owning.FailsBy {σ α : Type} (P : Failure → Prop) (m : Owning σ α) : Prop :=
  ∀ s w x, (m.exec s w).1 = .error x → P x

namespace Owning.FailsBy

variable {σ α β : Type} {P Q : Failure → Prop} {m : Owning σ α}

theorem of_ok (fine : ∀ s w, ∃ a, (m.exec s w).1 = .ok a) : m.FailsBy P := by
  intro s w x failed
  obtain ⟨a, done⟩ := fine s w
  cases done.symm.trans failed

theorem bind {f : α → Owning σ β} (first : m.FailsBy P) (second : ∀ a, (f a).FailsBy P) :
    (m >>= f).FailsBy P := by
  intro s w x failed
  have fails := first s w x
  rw [exec_bind] at failed
  generalize m.exec s w = result at fails failed
  obtain ⟨outcome, s', w'⟩ := result
  cases outcome with
  | error y =>
    cases failed
    exact fails rfl
  | ok a => exact second a s' w' x failed

theorem pure (a : α) : FailsBy (σ := σ) P (pure a) := .of_ok fun _ _ => ⟨a, rfl⟩

theorem own : FailsBy P (Owning.own : Owning σ σ) := .of_ok fun s _ => ⟨s, rfl⟩

theorem change (f : σ → σ) : FailsBy P (Owning.change f) := .of_ok fun _ _ => ⟨(), rfl⟩

theorem throw {e : Failure} (fails : P e) : FailsBy (σ := σ) P (throw e : Owning σ α) := by
  rintro s w x ⟨⟩
  exact fails

theorem lift {m : Sim α} (fails : ∀ w x, (m.exec w).1 = .error x → P x) : FailsBy (σ := σ) P (liftM m) :=
  fun _ w x failed => fails w x failed

theorem ofExcept {outcome : Except Failure α} (fails : ∀ x, outcome = .error x → P x) :
    FailsBy (σ := σ) P (liftM (Sim.ofExcept outcome)) := .lift fun _ x failed => fails x failed

theorem onMemory {f : Memory → Except Failure α × Memory} (fails : ∀ m x, (f m).1 = .error x → P x) :
    FailsBy (σ := σ) P (liftM (Pump.onMemory f)) :=
  .lift fun w x failed => by
    rw [Pump.exec_onMemory] at failed
    exact fails w.memory x failed

/-- A step on a part of the state. -/
theorem onPart {τ : Type} {get : σ → τ} {put : τ → σ → σ} {m : Owning τ α} (fails : m.FailsBy P) :
    FailsBy P (Owning.onPart get put m) := fun s w x failed => fails (get s) w x failed

/-- What is done with the outcome of a step. -/
theorem attempt {f : Except Failure α → Owning σ β} (fails : m.FailsBy P)
    (onward : ∀ outcome, (∀ x, outcome = .error x → P x) → (f outcome).FailsBy P) : FailsBy P (m.attempt >>= f) := by
  intro s w x failed
  rw [exec_bind, exec_attempt] at failed
  exact onward _ (fun y same => fails s w y same) _ _ x failed

/-- A step on some pumps, one after the other, and what is done with them afterwards. -/
theorem crew {step : Owning Pump Unit} (fails : step.FailsBy P) (pumps : List Pump)
    (next : List Pump → Owning σ α) (onward : ∀ pumps, (next pumps).FailsBy P) : (do
      let (outcome, pumps) ← Handle.onPumps step pumps
      Sim.ofExcept outcome
      next pumps : Owning σ α).FailsBy P := by
  have each (pumps : List Pump) (w : World) (x : Failure) :
      (Id.run ((Handle.onPumps step pumps).run w)).1.1 = .error x → P x := by
    induction pumps generalizing w with
    | nil => exact nofun
    | cons p rest ih =>
      intro failed
      have first := fails p w x
      rw [Handle.run_onPumps_cons] at failed
      generalize step.exec p w = result at first failed
      obtain ⟨outcome, p', w₁⟩ := result
      cases outcome with
      | error _ =>
        cases failed
        exact first rfl
      | ok _ => exact ih w₁ failed
  intro s w x failed
  have ended := each pumps w x
  rw [exec_bind, Handle.exec_onPumps] at failed
  generalize Id.run ((Handle.onPumps step pumps).run w) = result at ended failed
  obtain ⟨⟨outcome, pumps'⟩, w₁⟩ := result
  cases outcome with
  | error _ =>
    cases failed
    exact ended rfl
  | ok _ => exact onward pumps' s w₁ x failed

end Owning.FailsBy

/-- Closing a writer fails where nobody can read what it held, or where its descriptor is not open. -/
theorem Writer.close_failsBy : Writer.close.FailsBy fun x => x.isBrokenPipe ∨ x.Blocks := by
  refine .bind (.of_ok fun r _ => ⟨r, rfl⟩) fun r => ?_
  split
  · exact .of_ok fun _ _ => ⟨(), rfl⟩
  · intro s w x failed
    have leaving (outcome : Except Failure Unit) (broken : ∀ y, outcome = .error y → y.isBrokenPipe) :
        (do
          Sim.close r.descriptor
          Owning.change fun s => { s with held := [], closed := true }
          Sim.ofExcept outcome : Owning Writer Unit).FailsBy fun x => x.isBrokenPipe ∨ x.Blocks :=
      .bind (fun _ w x failed => .inr (Sim.Endless.close _ w x failed)) fun _ =>
        .bind (.of_ok fun _ _ => ⟨(), rfl⟩) fun _ => fun _ _ y failed => .inl (broken y failed)
    rw [Owning.exec_bind, Owning.exec_attempt] at failed
    refine leaving _ (fun y failed => ?_) _ _ x failed
    obtain ⟨passed, -⟩ | ⟨passed, -⟩ := exec_passOn s w
    · cases passed.symm.trans failed
    · rw [passed] at failed
      cases failed
      rfl

namespace Handle

/-- Closing the caller's end of stdin does not raise what could not be delivered: it answers it. -/
theorem endless_closeStdin : (closeEndpoint .stdin).Endless := by
  have dropped : (dropEndpoint .stdin).FailsBy fun x => x.isBrokenPipe ∨ x.Blocks := by
    refine .bind (.of_ok fun h _ => ⟨h, rfl⟩) fun h => .bind (.of_ok fun _ _ => ⟨(), rfl⟩) fun _ => ?_
    split
    · exact .of_ok fun _ _ => ⟨(), rfl⟩
    · exact fun _ w x failed => Writer.close_failsBy _ w x failed
  intro h w x failed
  have fails := dropped h w
  unfold closeEndpoint at failed
  rw [Owning.exec_bind, Owning.exec_attempt] at failed
  generalize (dropEndpoint .stdin).exec h w = result at fails failed
  obtain ⟨outcome, h', w'⟩ := result
  cases outcome with
  | ok _ => cases failed
  | error e =>
    dsimp only at failed
    split at failed
    · next unbroken =>
      cases failed
      exact (fails _ rfl).resolve_left (by simpa using unbroken)
    · rw [Owning.exec_bind, Owning.exec_own] at failed
      dsimp only at failed
      split at failed <;> cases failed

/-! ## All of the waiting -/

/-- Processes that were waited for are known for how they ended. -/
theorem exec_waitAll_ok {deadline : Option Time} {pids : List Nat}
    (known : ∀ pid ∈ pids, (w.exit? pid).isSome) (ran : (waitAll deadline pids).exec w = (.ok (), w')) :
    ∃ events, w.Passes w' events ∧ w'.AllReaped pids := by
  induction pids generalizing w with
  | nil =>
    cases ran
    exact ⟨[], .refl _, by simp [AllReaped]⟩
  | cons pid rest ih =>
    unfold waitAll at ran
    rw [Sim.exec_bind, exec_remaining] at ran
    obtain ⟨_, w₁, waited, ran⟩ := Sim.bind_ok ran
    obtain ⟨w₂, entries, plays, ended, rfl⟩ := Sim.wait_ok waited
    obtain ⟨_, runs, -⟩ := plays.runs
    have first := ((passes_emit w (.waited pid _) rfl fun _ => rfl).trans runs).trans (notice_passes w₂ pid)
    obtain ⟨_, later, reaped⟩ := ih (fun q member =>
      first.known (known q (List.mem_cons_of_mem _ member))) ran
    refine ⟨_, first.trans later, fun q member => ?_⟩
    rcases List.mem_cons.mp member with rfl | member
    · obtain ⟨state, there⟩ := Option.isSome_iff_exists.mp
        (((passes_emit w (.waited q _) rfl fun _ => rfl).trans runs).known (known q List.mem_cons_self))
      cases state with
      | none => cases (not_hasEnded_of_exit? there).symm.trans ended
      | some code =>
        exact ⟨code, later.isReaped ⟨by rw [exit?_notice, there], by rw [seen?_notice, there]⟩⟩
    · exact reaped q member

theorem pids_without (h : Handle) (s : Stream) : (h.without s).pids = h.pids := by cases s <;> rfl

/-- What comes after the processes were waited for does not undo it. -/
theorem reaped_of_waitAll {α : Type} {deadline : Option Time} {step : Owning Pump Unit} {next : Owning Handle α}
    {a : α} (unwatched : ∀ w₀, step.Unwatched w₀) (onward : ∀ w₀, next.Unwatched w₀)
    (known : ∀ pid ∈ h.pids, (w.exit? pid).isSome)
    (ran : (do waitAll deadline (← Owning.own).pids; eachPump step; next : Owning Handle α).exec h w
      = (.ok a, h', w')) : w'.AllReaped h.pids := by
  rw [Owning.exec_bind, Owning.exec_own] at ran
  obtain ⟨_, w₁, waited, ran⟩ := Owning.lift_bind_ok ran
  obtain ⟨_, -, reaped⟩ := exec_waitAll_ok known waited
  have rest : (do eachPump step; next : Owning Handle α).Unwatched w₁ :=
    .bind (Steady.eachPump (unwatched w₁)) fun _ => onward w₁
  have later := rest h w₁ (.refl w₁)
  rw [ran] at later
  exact later.allReaped reaped

namespace Judging

/-- When a call has gathered, it has waited for every process. -/
theorem reaped_of_gather {j : Judging} {kept : Option Failure} (known : ∀ pid ∈ h.pids, (w.exit? pid).isSome)
    (gathered : j.gather.exec h w = (.ok kept, h', w')) : w'.AllReaped h.pids := by
  have closing {s : Stream} {h h₁ : Handle} {w w₁ : World} {e : Option Failure}
      (known : ∀ pid ∈ h.pids, (w.exit? pid).isSome) (closed : (closeEndpoint s).exec h w = (.ok e, h₁, w₁)) :
      h₁.pids = h.pids ∧ ∀ pid ∈ h₁.pids, (w₁.exit? pid).isSome := by
    have same := (closeEndpoint_handle s h w).trans (dropEndpoint_handle s h w)
    have overlooks : w.Overlooks ((closeEndpoint s).exec h w).2.2 :=
      (Overlooks.steady w).closeEndpoint s h w (.refl w)
    rw [closed] at same overlooks
    have pids : h₁.pids = h.pids := (congrArg Handle.pids same).trans (pids_without h s)
    exact ⟨pids, fun pid member => overlooks.known (known pid (pids ▸ member))⟩
  cases j with
  | wait limit =>
    obtain ⟨undelivered, h₁, w₁, closed, ran⟩ := Owning.bind_ok gathered
    obtain ⟨pids, known₁⟩ := closing known closed
    obtain ⟨deadline, w₂, timed, ran⟩ := Owning.lift_bind_ok ran
    have same : w₂ = w₁ := by
      have untouched : ((deadlineOf limit).exec w₁).2 = w₁ := by cases limit <;> rfl
      rwa [timed] at untouched
    rw [same] at ran
    rw [← pids]
    exact reaped_of_waitAll (fun w₀ => (Overlooks.steady w₀).joinBy deadline)
      (fun _ => .bind .own fun _ => .pure _) known₁ ran
  | close discardErrors =>
    obtain ⟨stdin, h₁, w₁, closed, ran⟩ := Owning.bind_ok gathered
    obtain ⟨pids₁, known₁⟩ := closing known closed
    obtain ⟨stdout, h₂, w₂, closed, ran⟩ := Owning.bind_ok ran
    obtain ⟨pids₂, known₂⟩ := closing known₁ closed
    obtain ⟨stderr, h₃, w₃, closed, ran⟩ := Owning.bind_ok ran
    obtain ⟨pids₃, known₃⟩ := closing known₂ closed
    rw [← pids₁, ← pids₂, ← pids₃]
    exact reaped_of_waitAll (fun w₀ => (Overlooks.steady w₀).join none) (fun _ => .pure _) known₃ ran

/-- Without a limit all of the waiting fails only where nothing can go on. -/
theorem endless_gather {j : Judging} (unlimited : j.Unlimited) : j.gather.Endless := by
  have closed : (closeEndpoint .stdin).Endless := endless_closeStdin
  cases j with
  | wait limit =>
    cases unlimited
    have waits : (wait endless).gather = (do
        let undelivered ← closeEndpoint .stdin
        waitAll none (← Owning.own).pids
        eachPump (Pump.join none)
        return undelivered.or (firstError? (← Owning.own).pumps)) := rfl
    rw [waits]
    exact .bind closed fun _ => .bind .own fun _ => .bind (.lift (.waitAll _)) fun _ =>
      .bind (endless_eachPump endless_join) fun _ => .bind .own fun _ => .pure _
  | close discardErrors =>
    exact .bind closed fun _ => .bind (endless_closeEndpoint (by decide)) fun _ =>
      .bind (endless_closeEndpoint (by decide)) fun _ => .bind .own fun _ =>
        .bind (.lift (.waitAll _)) fun _ => .bind (endless_eachPump endless_join) fun _ => .pure _

/-- How a call that gives a verdict comes to its end. -/
inductive Ends (j : Judging) (h : Handle) (w : World) :
    Except Failure (List ProcessStatus) → Handle → World → Prop where
  /-- The waiting itself fails, and nothing that was kept is raised. -/
  | hindered {x : Failure} {h' : Handle} {w' : World} (stopped : j.gather.exec h w = (.error x, h', w'))
    (blocks : j.Unlimited → x.Blocks) : Ends j h w (.error x) h' w'
  /-- What was kept is raised, if anything was, and every process has been waited for. -/
  | judged {kept : Option Failure} {h' : Handle} {w' : World} (gathered : j.gather.exec h w = (.ok kept, h', w'))
    (reaped : w'.AllReaped h.pids) : Ends j h w (raised kept (h'.statusesIn w')) h' w'

theorem ends (j : Judging) (known : ∀ pid ∈ h.pids, (w.exit? pid).isSome) :
    let r := j.perform.exec h w
    j.Ends h w r.1 r.2.1 r.2.2 := by
  rw [perform_eq, Owning.exec_bind]
  generalize gathered : j.gather.exec h w = result
  obtain ⟨outcome, h', w'⟩ := result
  cases outcome with
  | error x =>
    exact .hindered gathered fun unlimited => endless_gather unlimited h w x (by rw [gathered])
  | ok kept =>
    have judged := Ends.judged gathered (reaped_of_gather known gathered)
    cases kept <;> exact judged

end Judging

/-! ## A call with a verdict of its own -/

/-- Keep what was drained from stderr. -/
def keepErrors : Option (Pump × ObjectRef) → Owning Handle Unit
  | some (_, ref) => do
    let collected := (← world).memory.bytesOf ref
    Owning.change fun h => { h with stderrOutput := some collected }
  | none => return

/-- What `communicate` does when it has read stdout, up to its own verdict. It answers the failure that it has
kept and will raise, if there is one. -/
def joinOwn (undelivered : Option Failure) (errors : Option (Pump × ObjectRef)) (pumps : List Pump)
    (output : Option Bytes) : Owning Handle (Option Bytes × Option Failure) := do
  let (outcome, pumps) ← onPumps (Pump.join none) pumps
  Sim.ofExcept outcome
  keepErrors errors
  return (output, undelivered.or (firstError? pumps))

/-- What `communicate` does when its pumps are started, up to its own verdict. -/
def receive (undelivered : Option Failure) (errors : Option (Pump × ObjectRef)) (pumps : List Pump) :
    Owning Handle (Option Bytes × Option Failure) := do
  match (← Owning.own).stdout with
  | some r =>
    let b ← r.readAll
    joinOwn undelivered errors pumps (some b)
  | none => joinOwn undelivered errors pumps none

/-- What `communicate` does with a pump for stdin or without one, up to its own verdict. -/
def converseBy (feeds : List Pump) (undelivered : Option Failure) :
    Owning Handle (Option Bytes × Option Failure) := do
  let errors ← takeErrors
  let (outcome, pumps) ← onPumps Pump.start (feeds ++ (errors.map (·.1)).toList)
  Sim.ofExcept outcome
  receive undelivered errors pumps

/-- All that `communicate` does up to its own verdict: what it read, and what it has kept. -/
def converse : Option Buffer → Owning Handle (Option Bytes × Option Failure)
  | some buffer => do
    let feed ← takeFeed buffer
    converseBy [feed] none
  | none => do
    let undelivered ← closeEndpoint .stdin
    converseBy [] undelivered

theorem collect_eq (undelivered : Option Failure) (errors : Option (Pump × ObjectRef)) (limit : Limit)
    (pumps : List Pump) : collect undelivered errors limit pumps = (do
      let (output, kept) ← receive undelivered errors pumps
      raise? kept
      let _ ← wait limit
      return output) := by
  have verdict (e e' : Option Failure) (next : Owning Handle (Option Bytes)) :
      (do raise? e; raise? e'; next : Owning Handle (Option Bytes)) = (do raise? (e.or e'); next) :=
    raise?_or e (fun _ => e') next
  unfold collect receive
  rw [bind_assoc]
  congr 1
  funext h
  cases h.stdout <;> cases errors <;> simp only [joinOwn, keepErrors, bind_assoc, pure_bind, verdict]

/-- `communicate` converses, gives its own verdict, and only then waits. -/
theorem communicate_eq_converse (input : Option Buffer) (limit : Limit) : communicate input limit = (do
    let (output, kept) ← converse input
    raise? kept
    let _ ← wait limit
    return output) := by
  rw [communicate_eq]
  cases input <;> simp only [converse, converseBy, bind_assoc, pure_bind, collect_eq]

/-- A handle has the processes that it had, and something holds of the system. -/
structure Beside (h₀ : Handle) (P : World → Prop) (h : Handle) (w : World) : Prop where
  processes : h.processes = h₀.processes
  holds : P w

namespace Beside

variable {α : Type} {h₀ : Handle} {P : World → Prop}

theorem lift {m : Sim α} (keeps : m.Preserves P) : (liftM m : Owning Handle α).Preserves (Beside h₀ P) :=
  fun _ w beside => ⟨beside.processes, keeps w beside.holds⟩

theorem onPumps {step : Owning Pump Unit} (keeps : step.Preserves fun _ => P) (pumps : List Pump) :
    (liftM (Handle.onPumps step pumps) : Owning Handle (Except Failure Unit × List Pump)).Preserves (Beside h₀ P) :=
  fun h w beside => ⟨beside.processes, Steady.onPumps keeps pumps h w beside.holds⟩

section Steady

variable (steady : Steady P)
include steady

theorem closeStdin : (closeEndpoint .stdin).Preserves (Beside h₀ P) := by
  intro h w beside
  refine ⟨?_, steady.closeEndpoint .stdin h w beside.holds⟩
  rw [closeEndpoint_handle, dropEndpoint_handle]
  exact beside.processes

omit steady in
theorem takeFeed (buffer : Buffer) : (Handle.takeFeed buffer).Preserves (Beside h₀ P) := by
  refine .bind .own fun h => ?_
  split
  · exact .throw _
  · exact .bind (.change fun _ _ beside => ⟨beside.processes, beside.holds⟩) fun _ => .pure _

theorem takeErrors : Handle.takeErrors.Preserves (Beside h₀ P) := by
  refine .bind .own fun h => ?_
  split
  · exact .pure _
  · exact .bind (lift (steady.onMemory _)) fun _ =>
      .bind (.change fun _ _ beside => ⟨beside.processes, beside.holds⟩) fun _ => .pure _

omit steady in
theorem keepErrors (errors : Option (Pump × ObjectRef)) : (Handle.keepErrors errors).Preserves (Beside h₀ P) := by
  cases errors with
  | none => exact .pure _
  | some e => exact .bind (lift .get) fun _ => .change fun _ _ beside => ⟨beside.processes, beside.holds⟩

theorem receive (undelivered : Option Failure) (errors : Option (Pump × ObjectRef)) (pumps : List Pump) :
    (Handle.receive undelivered errors pumps).Preserves (Beside h₀ P) := by
  have joined (output : Option Bytes) : (joinOwn undelivered errors pumps output).Preserves (Beside h₀ P) :=
    .bind (onPumps (steady.join none) pumps) fun _ => .bind (lift (.ofExcept _)) fun _ =>
      .bind (keepErrors _) fun _ => .pure _
  refine .bind .own fun h => ?_
  split
  · exact .bind (lift (steady.readAll _)) fun _ => joined _
  · exact joined _

/-- Up to its own verdict `communicate` changes nothing that processes cannot change. -/
theorem converse (input : Option Buffer) : (Handle.converse input).Preserves (Beside h₀ P) := by
  have started (feeds : List Pump) (undelivered : Option Failure) :
      (converseBy feeds undelivered).Preserves (Beside h₀ P) :=
    .bind (takeErrors steady) fun _ => .bind (onPumps steady.start _) fun _ => .bind (lift (.ofExcept _)) fun _ =>
      receive steady _ _ _
  cases input with
  | none => exact .bind (closeStdin steady) fun _ => started _ _
  | some buffer => exact .bind (takeFeed buffer) fun _ => started _ _

end Steady

end Beside

/-- A handle has the processes that it had, and nobody has looked at a process. -/
structure Apart (h₀ : Handle) (w₀ : World) (h : Handle) (w : World) : Prop where
  processes : h.processes = h₀.processes
  overlooks : w₀.Overlooks w

/-- Up to its own verdict `communicate` looks at no process. -/
theorem Apart.converse {h₀ : Handle} {w₀ : World} (input : Option Buffer) :
    (Handle.converse input).Preserves (Apart h₀ w₀) := by
  intro h w apart
  obtain ⟨processes, overlooks⟩ :=
    Beside.converse (Overlooks.steady w₀) input h w ⟨apart.processes, apart.overlooks⟩
  exact ⟨processes, overlooks⟩

/-- What a call fails with that was used wrongly, or that waits where nothing can go on. -/
def Stops (x : Failure) : Prop := x.Blocks ∨ ∃ m, x = .misuse m

theorem stops_of_endless {α σ : Type} {m : Owning σ α} (endless : m.Endless) : m.FailsBy Stops :=
  fun s w x failed => .inl (endless s w x failed)

theorem readAll_stops (r : Reader) : (liftM r.readAll : Owning Handle Bytes).FailsBy Stops :=
  .lift fun w x failed => by
    have whole : r.readAll = r.readUpTo (-1) := rfl
    rw [whole] at failed
    exact (Reader.error_of_readUpTo failed).imp .inl fun same => ⟨_, same⟩

/-- Starting a pump never fails. -/
theorem start_stops : Pump.start.FailsBy Stops := by
  refine .of_ok fun p w => ⟨(), ?_⟩
  cases direction : p.direction with
  | drain => rw [Pump.exec_start_of_drain direction w]
  | feed =>
    obtain ⟨_, ran⟩ := Pump.exec_run { p with thread := .running } (w.emit (.threadStarted p.threadName))
    rw [Pump.exec_start_of_feed direction, ran]

theorem takeFeed_stops (buffer : Buffer) : (takeFeed buffer).FailsBy Stops := by
  refine .bind (.of_ok fun h _ => ⟨h, rfl⟩) fun h => ?_
  split
  · intro _ _ x failed
    cases failed
    exact .inr ⟨_, rfl⟩
  · exact .bind (.of_ok fun _ _ => ⟨(), rfl⟩) fun _ => .of_ok fun _ _ => ⟨_, rfl⟩

theorem takeErrors_stops : takeErrors.FailsBy Stops := by
  refine .bind (.of_ok fun h _ => ⟨h, rfl⟩) fun h => ?_
  split
  · exact .of_ok fun _ _ => ⟨_, rfl⟩
  · refine .bind (.of_ok fun _ w => ⟨(w.memory.add (.byteArray [])).1, ?_⟩) fun _ => .bind (.of_ok fun _ _ => ⟨(), rfl⟩)
      fun _ => .of_ok fun _ _ => ⟨_, rfl⟩
    rw [Owning.exec_lift, Pump.exec_onMemory]

theorem joinOwn_stops (undelivered : Option Failure) (errors : Option (Pump × ObjectRef)) (pumps : List Pump)
    (output : Option Bytes) : (joinOwn undelivered errors pumps output).FailsBy Stops := by
  have keeps : (keepErrors errors).FailsBy Stops := by
    cases errors with
    | none => exact .of_ok fun _ _ => ⟨(), rfl⟩
    | some e => exact .of_ok fun _ _ => ⟨(), rfl⟩
  exact .crew (stops_of_endless endless_join) pumps (fun pumps => do
      keepErrors errors
      return (output, undelivered.or (firstError? pumps)))
    fun _ => .bind keeps fun _ => .of_ok fun _ _ => ⟨_, rfl⟩

/-- Up to its own verdict `communicate` raises nothing that it has kept. -/
theorem converse_stops (input : Option Buffer) : (converse input).FailsBy Stops := by
  have received (undelivered : Option Failure) (errors : Option (Pump × ObjectRef)) (pumps : List Pump) :
      (receive undelivered errors pumps).FailsBy Stops := by
    refine .bind (.of_ok fun h _ => ⟨h, rfl⟩) fun h => ?_
    split
    · exact .bind (readAll_stops _) fun _ => joinOwn_stops _ _ _ _
    · exact joinOwn_stops _ _ _ _
  have started (feeds : List Pump) (undelivered : Option Failure) :
      (converseBy feeds undelivered).FailsBy Stops :=
    .bind takeErrors_stops fun _ => .crew start_stops _ (receive undelivered _) fun _ => received _ _ _
  cases input with
  | none => exact .bind (stops_of_endless endless_closeStdin) fun _ => started _ _
  | some buffer => exact .bind (takeFeed_stops buffer) fun _ => started _ _

/-- How `communicate` comes to its end. -/
inductive Communicates (input : Option Buffer) (limit : Limit) (h : Handle) (w : World) :
    Except Failure (Option Bytes) → Handle → World → Prop where
  /-- It is used wrongly, or it cannot go on, and nothing that was kept is raised. -/
  | hindered {x : Failure} {h' : Handle} {w' : World} (stopped : (converse input).exec h w = (.error x, h', w'))
    (stops : Stops x) : Communicates input limit h w (.error x) h' w'
  /-- It raises what it has kept itself, and no process has been waited for. -/
  | early {output : Option Bytes} {x : Failure} {h' : Handle} {w' : World}
    (kept : (converse input).exec h w = (.ok (output, some x), h', w')) (overlooks : w.Overlooks w') :
    Communicates input limit h w (.error x) h' w'
  /-- It has kept nothing, and ends as waiting does. -/
  | late {output : Option Bytes} {h₁ h' : Handle} {w₁ w' : World}
    {outcome : Except Failure (List ProcessStatus)}
    (conversed : (converse input).exec h w = (.ok (output, none), h₁, w₁)) (pids : h₁.pids = h.pids)
    (ends : (Judging.wait limit).Ends h₁ w₁ outcome h' w') :
    Communicates input limit h w (outcome.map fun _ => output) h' w'

theorem communicates (input : Option Buffer) (limit : Limit) (known : ∀ pid ∈ h.pids, (w.exit? pid).isSome) :
    let r := (communicate input limit).exec h w
    Communicates input limit h w r.1 r.2.1 r.2.2 := by
  have apart : Apart h w _ _ := Apart.converse input h w ⟨rfl, .refl w⟩
  rw [communicate_eq_converse, Owning.exec_bind]
  generalize conversed : (converse input).exec h w = result at apart
  obtain ⟨outcome, h₁, w₁⟩ := result
  cases outcome with
  | error x => exact .hindered conversed (converse_stops input h w x (by rw [conversed]))
  | ok answer =>
    obtain ⟨output, kept⟩ := answer
    cases kept with
    | some x => exact .early conversed apart.overlooks
    | none =>
      have pids : h₁.pids = h.pids := by rw [Handle.pids, Handle.pids, apart.processes]
      have waited := (Judging.wait limit).ends (h := h₁) (w := w₁) fun pid member =>
        apart.overlooks.known (known pid (pids ▸ member))
      have late := Communicates.late conversed pids waited
      have waits : (Judging.wait limit).perform = wait limit := rfl
      rw [waits] at late
      dsimp only
      rw [Owning.exec_bind, Owning.exec_lift]
      dsimp only [raise?, Sim.exec_pure]
      rw [Owning.exec_bind]
      generalize (wait limit).exec h₁ w₁ = ended at late
      obtain ⟨outcome, h', w'⟩ := ended
      cases outcome <;> exact late

/-- **Failures that were kept are raised after all waiting, but for those of `communicate` itself.** For every
handle, whatever its processes do, `wait` and `close` raise data that could not be delivered and failures of
pumps only when every process has been waited for; before that they fail, without a limit, only where nothing
can go on. What `communicate` has kept itself, of stdin or of its own pumps, it raises before it has looked at
any process, and what is raised after that is raised as by `wait`. -/
theorem kept_raised_after_waiting (known : ∀ pid ∈ h.pids, (w.exit? pid).isSome) :
    (∀ j : Judging, let r := j.perform.exec h w; j.Ends h w r.1 r.2.1 r.2.2) ∧
      ∀ input limit, let r := (communicate input limit).exec h w
        Communicates input limit h w r.1 r.2.1 r.2.2 :=
  ⟨fun j => j.ends known, fun input limit => communicates input limit known⟩

/-- In this system `a` reads nothing and ends at once. -/
private def heedlessWorld : World := { programs := [([.char 'a'], { reads := .nothing })] }

/-- The command `a`, started with an end of stdin for the caller. -/
private def heedlessStart : Except Failure Handle × Engine × World :=
  (Engine.spawn (Engine.letterItem 'a') { stdin := Target.toItem Target.callerEnd }).exec {} heedlessWorld

/-- Whether a call raises a broken pipe after a byte was written to `a`, and whether `a` is known to have ended
then. -/
private def raisesBroken {α : Type} (call : Owning Handle α) (reaped : Bool) : Bool :=
  match heedlessStart with
  | (.ok h, _, w) =>
    let (_, h₁, w₁) := (write [120]).exec h w
    match call.exec h₁ w₁ with
    | (.error x, _, w₂) => x.isBrokenPipe && h₁.pids == [1001] && (w₁.exit? 1001).isSome &&
        (w₂.seen? 1001 == some (if reaped then some 0 else none))
    | _ => false
  | _ => false

private theorem exists_raised {α : Type} {call : Owning Handle α} {reaped : Bool}
    (raises : raisesBroken call reaped = true) : ∃ handle e' w' n h₁ w₁ x h₂ w₂,
      heedlessStart = (.ok handle, e', w') ∧ (write [120]).exec handle w' = (n, h₁, w₁) ∧
        call.exec h₁ w₁ = (.error x, h₂, w₂) ∧ x.isBrokenPipe ∧ h₁.pids = [1001] ∧
        (w₁.exit? 1001).isSome ∧ w₂.seen? 1001 = some (if reaped then some 0 else none) := by
  unfold raisesBroken at raises
  split at raises
  · next h e w begins =>
    dsimp only at raises
    split at raises
    · next x h₂ w₂ called =>
      simp only [Bool.and_eq_true, beq_iff_eq] at raises
      obtain ⟨⟨⟨broken, pids⟩, known⟩, seen⟩ := raises
      exact ⟨h, e, w, _, _, _, x, h₂, w₂, begins, rfl, called, broken, pids, known, seen⟩
    · cases raises
  · cases raises

/-- What was written to `a` and could not be delivered is raised by waiting, and `a` has been waited for. -/
theorem wait_raises_after_waiting : ∃ handle e' w' n h₁ w₁ x h₂ w₂,
    heedlessStart = (.ok handle, e', w') ∧ (write [120]).exec handle w' = (n, h₁, w₁) ∧
      (∀ pid ∈ h₁.pids, (w₁.exit? pid).isSome) ∧ (wait endless).exec h₁ w₁ = (.error x, h₂, w₂) ∧
      x.isBrokenPipe ∧ w₂.AllReaped h₁.pids := by
  have raises : raisesBroken (wait endless) true = true := by decide +kernel
  obtain ⟨handle, e', w', n, h₁, w₁, x, h₂, w₂, begins, wrote, waited, broken, pids, known, -⟩ :=
    exists_raised raises
  have known : ∀ pid ∈ h₁.pids, (w₁.exit? pid).isSome := by
    rw [pids]
    simpa using known
  have ends := (kept_raised_after_waiting known).1 (.wait endless)
  refine ⟨handle, e', w', n, h₁, w₁, x, h₂, w₂, begins, wrote, known, waited, broken, ?_⟩
  have waits : (Judging.wait endless).perform.exec h₁ w₁ = (.error x, h₂, w₂) := waited
  rw [waits] at ends
  dsimp only at ends
  generalize outcome : (Except.error x : Except Failure (List ProcessStatus)) = result at ends
  cases ends with
  | hindered stopped blocks =>
    cases outcome
    obtain rfl | rfl := blocks rfl <;> cases broken
  | judged gathered reaped => exact reaped

/-- What was written to `a` and could not be delivered is raised by `communicate` too, but before anybody has
waited for `a`. -/
theorem communicate_raises_before_waiting : ∃ handle e' w' n h₁ w₁ x h₂ w₂,
    heedlessStart = (.ok handle, e', w') ∧ (write [120]).exec handle w' = (n, h₁, w₁) ∧
      (communicate none endless).exec h₁ w₁ = (.error x, h₂, w₂) ∧ x.isBrokenPipe ∧
      1001 ∈ h₁.pids ∧ w₂.seen? 1001 = some none := by
  have raises : raisesBroken (communicate none endless) false = true := by decide +kernel
  obtain ⟨handle, e', w', n, h₁, w₁, x, h₂, w₂, begins, wrote, called, broken, pids, -, unseen⟩ :=
    exists_raised raises
  exact ⟨handle, e', w', n, h₁, w₁, x, h₂, w₂, begins, wrote, called, broken, by simp [pids], unseen⟩

end Handle

end Pipework
