import Pipework.Handle
import Pipework.Proofs.System.Descriptors

/-!
# Calls that wait for the end

`wait`, `check`, `stop` and `close` have one plan: prepare, close the caller's end of stdin, wait for
the processes and the pumps, and only then raise what could not be delivered. `Ending.perform_eq` says so
once for the four. What closing the end did is thus known in one place alone, the call itself: the handle
does not keep it. Apart from that closing, no step of a handle takes the end away or changes its settings.
-/

namespace Pipework

namespace Handle

variable {α β : Type} {h h' h'' : Handle} {w : World} {e : Failure}

/-! ## What a step leaves of the caller's end -/

/-- Two states of a handle that agree in whether there is an end of stdin, and in what closing it makes
of a failure. -/
structure SameEnd (h h' : Handle) : Prop where
  isSome : h'.stdin.isSome = h.stdin.isSome
  settings : h'.settings = h.settings

theorem SameEnd.refl (h : Handle) : SameEnd h h := ⟨rfl, rfl⟩

theorem SameEnd.trans (first : SameEnd h h') (second : SameEnd h' h'') : SameEnd h h'' :=
  ⟨second.isSome.trans first.isSome, second.settings.trans first.settings⟩

/-- A step that neither takes the end of stdin away nor changes the settings, however it ends. -/
def Keeping (m : Owning Handle α) : Prop := ∀ h w, SameEnd h (m.exec h w).2.1

namespace Keeping

theorem pure (a : α) : Keeping (pure a : Owning Handle α) := fun h _ => .refl h

theorem throw (e : Failure) : Keeping (throw e : Owning Handle α) := fun h _ => .refl h

theorem own : Keeping (Owning.own : Owning Handle Handle) := fun h _ => .refl h

theorem lift (m : Sim α) : Keeping (liftM m : Owning Handle α) := fun h _ => .refl h

theorem bind {m : Owning Handle α} {f : α → Owning Handle β} (first : Keeping m)
    (second : ∀ a, Keeping (f a)) : Keeping (m >>= f) := by
  intro h w
  have kept := first h w
  rw [Owning.exec_bind]
  generalize m.exec h w = result at kept
  obtain ⟨outcome, h', w'⟩ := result
  cases outcome with
  | error e => exact kept
  | ok a => exact kept.trans (second a h' w')

theorem say (level : Level) (text : Text) : Keeping (Handle.say level text) :=
  .bind .own fun _ => .lift _

theorem kill : Keeping Handle.kill := .bind .own fun _ => .lift _

theorem terminate : Keeping Handle.terminate := .bind .own fun _ => .lift _

theorem poll : Keeping Handle.poll := .bind .own fun _ => .lift _

/-- What is written stays with the end, which is put back. -/
theorem write (data : Bytes) : Keeping (Handle.write data) := by
  intro h w
  unfold Handle.write
  rw [Owning.exec_bind, Owning.exec_own]
  dsimp only
  split
  · exact .refl h
  · next r stdin => exact ⟨by simp [Owning.exec_bind, stdin], rfl⟩

theorem waitOrKill (deadline : Time) (pids : List Nat) : Keeping (Handle.waitOrKill deadline pids) := by
  induction pids with
  | nil => exact .pure ()
  | cons pid rest ih =>
    unfold Handle.waitOrKill
    refine .bind (.lift _) fun outcome => ?_
    split
    · exact ih
    · exact .bind (.say _ _) fun _ => .bind (.lift _) fun _ => .bind (.lift _) fun _ => ih
    · exact .bind (.throw _) fun _ => ih

theorem eachPump (step : Owning Pump Unit) : Keeping (Handle.eachPump step) :=
  .bind .own fun _ => .bind (.lift _) fun _ =>
    .bind (fun _ _ => ⟨rfl, rfl⟩) fun _ => .lift _

end Keeping

/-! ## Closing an end -/

/-- Telling of a failure does not change the handle. -/
theorem closeEndpoint_handle (s : Stream) (h : Handle) (w : World) :
    ((closeEndpoint s).exec h w).2.1 = ((dropEndpoint s).exec h w).2.1 := by
  unfold closeEndpoint
  rw [Owning.exec_bind, Owning.exec_attempt]
  generalize (dropEndpoint s).exec h w = dropped
  obtain ⟨outcome, h', w'⟩ := dropped
  cases outcome with
  | ok _ => rfl
  | error e =>
    dsimp only
    split
    · rfl
    · rw [Owning.exec_bind, Owning.exec_own]
      dsimp only
      split <;> rfl

/-- A handle without an end of its own. -/
def without (h : Handle) : Stream → Handle
  | .stdin => { h with stdin := none }
  | .stdout => { h with stdout := none }
  | .stderr => { h with stderr := none }

/-- However the closing goes, the end is gone, and nothing else is. -/
theorem dropEndpoint_handle (s : Stream) (h : Handle) (w : World) :
    ((dropEndpoint s).exec h w).2.1 = h.without s := by
  cases s <;>
  · simp only [dropEndpoint, Owning.exec_bind, Owning.exec_own, Owning.exec_change]
    split <;> rfl

theorem Keeping.closeEndpoint {s : Stream} (other : s ≠ .stdin) : Keeping (Handle.closeEndpoint s) := by
  intro h w
  rw [closeEndpoint_handle, dropEndpoint_handle]
  cases s with
  | stdin => exact absurd rfl other
  | stdout | stderr => exact ⟨rfl, rfl⟩

/-- What could not be delivered is answered, unless that is ignored, and logged in any case. -/
theorem closeEndpoint_of_broken {s : Stream} {w' : World}
    (dropped : (dropEndpoint s).exec h w = (.error e, h', w')) (broken : e.isBrokenPipe) :
    ∃ line, (closeEndpoint s).exec h w
      = (.ok (if h'.settings.ignoresBrokenPipe then none else some e), h',
        { w' with log := line :: w'.log }) := by
  rw [closeEndpoint, Owning.exec_bind, Owning.exec_attempt, dropped]
  simp only [broken, Bool.not_true, Bool.false_eq_true, if_false, Owning.exec_bind, Owning.exec_own]
  cases h'.settings.ignoresBrokenPipe with
  | true =>
    simp only [if_true, Owning.exec_bind, say, Owning.exec_own, Owning.exec_lift, Sim.exec_note,
      Owning.exec_pure]
    exact ⟨_, rfl⟩
  | false =>
    simp only [Bool.false_eq_true, if_false, Owning.exec_bind, say, Owning.exec_own, Owning.exec_lift,
      Sim.exec_note, Owning.exec_pure]
    exact ⟨_, rfl⟩

/-- What could not be delivered is answered, where that is not ignored. -/
theorem closeEndpoint_of_undelivered {s : Stream} (strict : h.settings.ignoresBrokenPipe = false)
    (fails : ((dropEndpoint s).exec h w).1 = .error e) (broken : e.isBrokenPipe) :
    ((closeEndpoint s).exec h w).1 = .ok (some e) := by
  have settings : ((dropEndpoint s).exec h w).2.1.settings = h.settings := by
    rw [dropEndpoint_handle]
    cases s <;> rfl
  generalize dropped : (dropEndpoint s).exec h w = result at fails settings
  obtain ⟨outcome, h', w'⟩ := result
  cases fails
  obtain ⟨line, told⟩ := closeEndpoint_of_broken dropped broken
  rw [told]
  dsimp only at settings ⊢
  rw [settings, strict]
  rfl

/-! ## The plan of a call -/

/-- A call that waits for the processes to end. -/
inductive Ending where
  | wait (limit : Limit)
  | check (limit : Limit)
  | stop (grace : Except Failure Time)
  | close

namespace Ending

/-- The call itself. -/
def perform : Ending → Owning Handle (List ProcessStatus)
  | wait limit => Handle.wait limit
  | check limit => Handle.check limit
  | stop grace => Handle.stop grace
  | close => Handle.close false

/-- What a call does before it closes the end of stdin. -/
def prepare : Ending → Owning Handle Unit
  | wait _ | check _ | close => return
  | stop grace => do
    terminate
    let deadline := (← world).clock + (← Sim.ofExcept grace)
    waitOrKill deadline (← Owning.own).pids

/-- What a call waits for after that. It answers what became of the other ends, where it closes them. -/
def await : Ending → Owning Handle (Option Failure)
  | wait limit | check limit => do
    let deadline ← deadlineOf limit
    waitAll deadline (← Owning.own).pids
    eachPump (joinBy deadline)
    return none
  | stop _ | close => do
    let stdout ← closeEndpoint .stdout
    let stderr ← closeEndpoint .stderr
    waitAll none (← Owning.own).pids
    eachPump (Pump.join none)
    return [stdout, stderr].findSome? id

/-- What a call does once the end of stdin is closed: the waiting comes first, then what could not be
delivered, then all the rest. -/
def afterClosing (c : Ending) (rest : Option Failure → Owning Handle (List ProcessStatus))
    (undelivered : Option Failure) : Owning Handle (List ProcessStatus) := do
  let other ← c.await
  raise? undelivered
  rest other

/-- Of some failures the first is raised. -/
theorem raise?_cons (e : Option Failure) (others : List (Option Failure)) (next : Owning Handle α) :
    (do raise? ((e :: others).findSome? id); next : Owning Handle α) =
      (do raise? e; raise? (others.findSome? id); next) := by
  cases e <;> rfl

/-- The plan of the four calls: what closing the end of stdin did is kept until the waiting is over. -/
theorem perform_eq (c : Ending) : ∃ rest, (∀ other, Keeping (rest other)) ∧
    c.perform = (do
      c.prepare
      let undelivered ← closeEndpoint .stdin
      c.afterClosing rest undelivered) := by
  have settled : Keeping statuses := .bind .own fun _ => .bind (.lift _) fun _ => .pure _
  cases c with
  | wait limit =>
    refine ⟨fun _ => do raise? (firstError? (← Owning.own).pumps); statuses,
      fun _ => .bind .own fun _ => .bind (.lift _) fun _ => settled, ?_⟩
    simp only [perform, Handle.wait, prepare, afterClosing, await, bind_assoc, pure_bind]
  | check limit =>
    obtain ⟨judge, keeps, checks⟩ : ∃ judge, (∀ statuses, Keeping (judge statuses)) ∧
        Handle.check limit = Handle.wait limit >>= judge := by
      refine ⟨_, fun statuses => ?_, rfl⟩
      dsimp only
      split
      · exact .bind (.say _ _) fun _ => .bind (.throw _) fun _ => .pure _
      · exact .pure _
    refine ⟨fun _ => do raise? (firstError? (← Owning.own).pumps); judge (← statuses),
      fun _ => .bind .own fun _ => .bind (.lift _) fun _ => .bind settled keeps, ?_⟩
    simp only [perform, checks, Handle.wait, prepare, afterClosing, await, bind_assoc, pure_bind]
  | stop grace =>
    refine ⟨fun other => do raise? other; statuses, fun _ => .bind (.lift _) fun _ => settled, ?_⟩
    simp only [perform, Handle.stop, Handle.close, prepare, afterClosing, await, bind_assoc, pure_bind,
      Bool.not_false, if_true, raise?_cons]
  | close =>
    refine ⟨fun other => do raise? other; statuses, fun _ => .bind (.lift _) fun _ => settled, ?_⟩
    simp only [perform, Handle.close, prepare, afterClosing, await, bind_assoc, pure_bind,
      Bool.not_false, if_true, raise?_cons]

theorem keeping_prepare (c : Ending) : Keeping c.prepare := by
  cases c with
  | wait _ | check _ | close => exact .pure ()
  | stop grace =>
    exact .bind .terminate fun _ => .bind (.lift _) fun _ => .bind (.lift _) fun _ =>
      .bind .own fun _ => .waitOrKill _ _

theorem keeping_await (c : Ending) : Keeping c.await := by
  cases c with
  | wait _ | check _ =>
    exact .bind (.lift _) fun _ => .bind .own fun _ => .bind (.lift _) fun _ =>
      .bind (.eachPump _) fun _ => .pure none
  | stop _ | close =>
    exact .bind (.closeEndpoint (by decide)) fun _ => .bind (.closeEndpoint (by decide)) fun _ =>
      .bind .own fun _ => .bind (.lift _) fun _ => .bind (.eachPump _) fun _ => .pure _

/-- A call fails before it comes to the end of stdin, or it takes the end away. -/
theorem perform_cases (c : Ending) (h : Handle) (w : World) :
    (∃ x, (c.perform.exec h w).1 = .error x ∧ SameEnd h (c.perform.exec h w).2.1) ∨
      SameEnd (h.without .stdin) (c.perform.exec h w).2.1 := by
  obtain ⟨rest, keeps, planned⟩ := c.perform_eq
  have prepared := c.keeping_prepare h w
  rw [planned, Owning.exec_bind]
  generalize c.prepare.exec h w = result at prepared
  obtain ⟨outcome, h₁, w₁⟩ := result
  cases outcome with
  | error x => exact .inl ⟨x, rfl, prepared⟩
  | ok _ =>
    right
    have gone := (closeEndpoint_handle .stdin h₁ w₁).trans (dropEndpoint_handle .stdin h₁ w₁)
    have same : SameEnd (h.without .stdin) (h₁.without .stdin) := ⟨rfl, prepared.settings⟩
    dsimp only
    rw [Owning.exec_bind]
    generalize (Handle.closeEndpoint .stdin).exec h₁ w₁ = closed at gone
    obtain ⟨closing, h₂, w₂⟩ := closed
    cases gone
    cases closing with
    | error _ => exact same
    | ok undelivered =>
      have kept : Keeping (c.afterClosing rest undelivered) :=
        .bind c.keeping_await fun other => .bind (.lift _) fun _ => keeps other
      exact same.trans (kept _ w₂)

end Ending

end Handle

end Pipework
