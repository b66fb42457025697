import Pipework.Proofs.Engine.Phases
import Pipework.Proofs.Handle.Waiting

/-!
# Undelivered data

What was written to the caller's end of stdin is held back until the end is closed, and by then nobody may
be left to read it. Only the call that closes the end comes to know of it.

* `Ending.undelivered_iff`: a call cannot deliver just where the end holds something that nobody can read.
* `Ending.Undelivered.exec_perform`: such a call raises the broken pipe after its waiting, unless the
  waiting fails.
* `undelivered_surfaces`: over every sequence of operations, no call has returned normally by then, and
  where the waiting does not fail the broken pipe is raised before any call returns normally.
* `timeout_hides_undelivered`: a wait that runs out of time forgets it, and a later wait returns normally.
-/

namespace Pipework

/-! ## What a writer cannot pass on -/

namespace Writer

variable {r : Writer} {w : World}

/-- A writer holds something for a pipe that nobody can read any more. -/
def Stranded (r : Writer) (w : World) : Prop :=
  r.held ≠ [] ∧ ∃ pipe, w.channel? r.descriptor = some (.writeEnd pipe) ∧ w.hasReader pipe = false

/-- Of all that can be written to, only a pipe without readers refuses. -/
theorem stranded_iff :
    r.Stranded w ↔ w.deliver? ((w.channel? r.descriptor).getD .null) r.held = none := by
  unfold Stranded World.deliver?
  cases held : r.held with
  | nil => simp
  | cons b rest =>
    cases w.channel? r.descriptor with
    | none => simp
    | some c =>
      cases c with
      | writeEnd pipe => cases readers : w.hasReader pipe <;> simp [readers]
      | _ => simp

theorem exec_passOn (r : Writer) (w : World) :
    (passOn.exec r w).1 = .ok () ∧ ¬ r.Stranded w.settle ∨
      passOn.exec r w = (.error (.system .brokenPipe), r, w.settle) ∧ r.Stranded w.settle := by
  rw [stranded_iff]
  by_cases holds : r.held = []
  · exact .inl ⟨by rw [passOn_of_empty holds], by simp [World.deliver?, holds]⟩
  · rw [passOn_of_held holds]
    cases w.settle.deliver? ((w.settle.channel? r.descriptor).getD .null) r.held with
    | none => exact .inr ⟨rfl, rfl⟩
    | some after => exact .inl ⟨rfl, Option.some_ne_none after⟩

/-- Closing a writer that is open fails with a broken pipe just where the writer is stranded. -/
theorem close_breaks_iff (notClosed : r.closed = false) :
    (∃ e, (close.exec r w).1 = .error e ∧ e.isBrokenPipe) ↔ r.Stranded w.settle := by
  obtain ⟨passed, free⟩ | ⟨passed, stranded⟩ := exec_passOn r w
  · refine iff_of_false ?_ free
    rintro ⟨e, failed, broken⟩
    have leaving : (do
        Sim.close r.descriptor
        Owning.change fun s => { s with held := [], closed := true }
        Sim.ofExcept (.ok ()) : Owning Writer Unit).Endless :=
      .bind (.lift (.close _)) fun _ => .bind (fun _ _ _ => nofun) fun _ => .lift fun _ _ => nofun
    unfold close at failed
    rw [Owning.exec_bind, Owning.exec_own] at failed
    simp only [notClosed, Bool.false_eq_true, if_false] at failed
    rw [Owning.exec_bind, Owning.exec_attempt, passed] at failed
    obtain rfl | rfl := leaving _ _ e failed <;> cases broken
  · refine iff_of_true ⟨.system .brokenPipe, ?_, rfl⟩ stranded
    obtain ⟨-, pipe, leads, -⟩ := stranded
    rw [exec_close_of_passOn notClosed passed (World.mem_of_channel? leads)]

end Writer

namespace Handle

variable {h h₁ : Handle} {w w₁ : World} {e : Failure}

namespace Ending

/-- The first half of a call: up to the closing of stdin, with what came of that. -/
def delivery (c : Ending) : Owning Handle (Except Failure Unit) := do
  c.prepare
  (dropEndpoint .stdin).attempt

/-- A call comes to close the end of stdin, and cannot deliver what was written to it. -/
def Undelivered (c : Ending) (e : Failure) (h : Handle) (w : World) : Prop :=
  (c.delivery.exec h w).1 = .ok (.error e) ∧ e.isBrokenPipe

/-- A call cannot deliver just where, once it has prepared, the end holds something that nobody can read
any more. -/
theorem undelivered_iff {c : Ending} {r : Writer} (prepared : c.prepare.exec h w = (.ok (), h₁, w₁))
    (stdin : h₁.stdin = some r) (notClosed : r.closed = false) :
    (∃ e, c.Undelivered e h w) ↔ r.Stranded w₁.settle := by
  have dropped : ((dropEndpoint .stdin).exec h₁ w₁).1 = (Writer.close.exec r w₁).1 := by
    simp only [dropEndpoint, Owning.exec_bind, Owning.exec_own, Owning.exec_change, stdin,
      Owning.exec_liftRunOn, Owning.exec_lift, Sim.exec_ofExcept]
  have delivered : (c.delivery.exec h w).1 = .ok (Writer.close.exec r w₁).1 := by
    simp only [delivery, Owning.exec_bind, prepared, Owning.exec_attempt, dropped]
  rw [← Writer.close_breaks_iff notClosed]
  unfold Undelivered
  rw [delivered]
  simp

/-- A call without its verdict: all that it has to do and to wait for. -/
def waiting (c : Ending) : Owning Handle (Option Failure) := do
  c.prepare
  let _ ← closeEndpoint .stdin
  c.await

/-- Where a call cannot deliver, it comes as far as the closing of the end and goes on with what that
answered. -/
theorem Undelivered.closes {c : Ending} (undelivered : c.Undelivered e h w)
    (strict : h.settings.ignoresBrokenPipe = false) :
    ∃ h₁ w₁ h₂ w₂, c.prepare.exec h w = (.ok (), h₁, w₁) ∧ h₁.stdin.isSome ∧
      (closeEndpoint .stdin).exec h₁ w₁ = (.ok (some e), h₂, w₂) := by
  obtain ⟨fails, broken⟩ := undelivered
  have prepared := c.keeping_prepare h w
  unfold delivery at fails
  rw [Owning.exec_bind] at fails
  generalize c.prepare.exec h w = result at fails prepared
  obtain ⟨outcome, h₁, w₁⟩ := result
  cases outcome with
  | error x => cases fails
  | ok _ =>
    have dropped : ((dropEndpoint .stdin).exec h₁ w₁).1 = .error e := by simpa using fails
    have told := closeEndpoint_of_undelivered (prepared.settings ▸ strict) dropped broken
    refine ⟨h₁, w₁, _, _, rfl, ?_, Prod.ext told rfl⟩
    cases stdin : h₁.stdin with
    | some r => rfl
    | none => simp [dropEndpoint, Owning.exec_bind, stdin] at dropped

/-- What a call cannot deliver is still there until then. -/
theorem Undelivered.isOpen {c : Ending} (undelivered : c.Undelivered e h w)
    (strict : h.settings.ignoresBrokenPipe = false) : h.stdin.isSome := by
  obtain ⟨h₁, w₁, _, _, prepared, isOpen, -⟩ := undelivered.closes strict
  have kept := (c.keeping_prepare h w).isSome
  rw [prepared] at kept
  exact kept.symm.trans isOpen

/-- A call that could not deliver tells so when it has waited. If the waiting fails, that failure is the
outcome, and nothing tells of the other. -/
theorem Undelivered.exec_perform {c : Ending} (undelivered : c.Undelivered e h w)
    (strict : h.settings.ignoresBrokenPipe = false) :
    (c.perform.exec h w).1 = (do let _ ← (c.waiting.exec h w).1; throw e) := by
  obtain ⟨h₁, w₁, h₂, w₂, prepared, -, closed⟩ := undelivered.closes strict
  obtain ⟨rest, -, planned⟩ := c.perform_eq
  rw [planned]
  simp only [waiting, afterClosing, Owning.exec_bind, prepared, closed]
  generalize c.await.exec h₂ w₂ = awaited
  obtain ⟨waited, h₃, w₃⟩ := awaited
  cases waited <;> rfl

/-- Without a limit the waiting itself fails only where nothing can go on. -/
theorem Undelivered.blocks {c : Ending} (undelivered : c.Undelivered e h w)
    (strict : h.settings.ignoresBrokenPipe = false) (unlimited : c.Unlimited) {x : Failure}
    (failed : (c.waiting.exec h w).1 = .error x) : x.Blocks := by
  obtain ⟨h₁, w₁, h₂, w₂, prepared, -, closed⟩ := undelivered.closes strict
  simp only [waiting, Owning.exec_bind, prepared, closed] at failed
  exact endless_await unlimited h₂ w₂ x failed

end Ending

/-! ## Operations -/

/-- What a caller does with a handle, as far as it concerns the end of stdin. -/
inductive Operation where
  | write (data : Bytes)
  | poll
  | kill
  | terminate
  | ending (c : Ending)
  /-- Whatever happens to the system in between; the handle is not touched. -/
  | meanwhile (change : World → World)

/-- The operation itself. -/
def Operation.perform : Operation → Owning Handle Unit
  | write data => do let _ ← Handle.write data
  | poll => do let _ ← Handle.poll
  | kill => Handle.kill
  | terminate => Handle.terminate
  | ending c => do let _ ← c.perform
  | meanwhile change => (modify change : Sim Unit)

/-- What comes of a call that waits for the end, apart from the statuses. -/
theorem Ending.exec_perform (c : Ending) (h : Handle) (w : World) :
    ((Operation.ending c).perform.exec h w).1 = (do let _ ← (c.perform.exec h w).1; pure ()) := by
  unfold Operation.perform
  rw [Owning.exec_bind]
  generalize c.perform.exec h w = result
  obtain ⟨outcome, h', w'⟩ := result
  cases outcome <;> rfl

/-- The handle and the system after some operations, whatever came of each. -/
def after : List Operation → Handle → World → Handle × World
  | [], h, w => (h, w)
  | op :: rest, h, w => let (_, h, w) := op.perform.exec h w; after rest h w

/-- What comes of some operations, one after another. -/
def outcomes : List Operation → Handle → World → List (Except Failure Unit)
  | [], _, _ => []
  | op :: rest, h, w => let (outcome, h, w) := op.perform.exec h w; outcome :: outcomes rest h w

/-- A failure is raised before a call that waits for the end returns normally. -/
def Surfaces (e : Failure) (ops : List Operation) (h : Handle) (w : World) : Prop :=
  ∀ (n : Nat) (c : Ending), ops[n]? = some (.ending c) → (outcomes ops h w)[n]? = some (.ok ()) →
    ∃ m < n, (outcomes ops h w)[m]? = some (.error e)

/-- An operation leaves the end of stdin where it is, and then it is no call that returned normally after
waiting for the end; or it takes the end away. -/
theorem Operation.perform_cases (op : Operation) (h : Handle) (w : World) :
    (SameEnd h (op.perform.exec h w).2.1 ∧
        ∀ c, op = .ending c → (op.perform.exec h w).1 ≠ .ok ()) ∨
      SameEnd (h.without .stdin) (op.perform.exec h w).2.1 := by
  cases op with
  | write data => exact .inl ⟨(Keeping.write data).bind (fun _ => .pure _) h w, fun _ same => nomatch same⟩
  | poll => exact .inl ⟨Keeping.poll.bind (fun _ => .pure _) h w, fun _ same => nomatch same⟩
  | kill => exact .inl ⟨Keeping.kill h w, fun _ same => nomatch same⟩
  | terminate => exact .inl ⟨Keeping.terminate h w, fun _ same => nomatch same⟩
  | meanwhile change => exact .inl ⟨.refl h, fun _ same => nomatch same⟩
  | ending c =>
    have ended := c.perform_cases h w
    unfold Operation.perform
    rw [Owning.exec_bind]
    generalize c.perform.exec h w = result at ended
    obtain ⟨outcome, h', w'⟩ := result
    cases outcome with
    | error x =>
      exact ended.imp (fun ⟨_, _, same⟩ => ⟨same, fun _ _ => nofun⟩) id
    | ok _ =>
      right
      exact ended.resolve_left fun ⟨_, failed, _⟩ => nomatch failed

/-! ## Runs -/

variable {ops before : List Operation}

theorem outcomes_append (ops later : List Operation) (h : Handle) (w : World) :
    outcomes (ops ++ later) h w
      = outcomes ops h w ++ outcomes later (after ops h w).1 (after ops h w).2 := by
  induction ops generalizing h w with
  | nil => rfl
  | cons op rest ih =>
    simp only [List.cons_append, outcomes, after]
    rw [ih]

theorem length_outcomes (ops : List Operation) (h : Handle) (w : World) :
    (outcomes ops h w).length = ops.length := by
  induction ops generalizing h w with
  | nil => rfl
  | cons op rest ih => simp only [outcomes, List.length_cons, ih]

/-- What comes of an operation depends on what those before it left. -/
theorem outcomes_at (before : List Operation) (op : Operation) (later : List Operation) (h : Handle)
    (w : World) : (outcomes (before ++ op :: later) h w)[before.length]?
      = some (op.perform.exec (after before h w).1 (after before h w).2).1 := by
  rw [outcomes_append, ← length_outcomes before h w, List.getElem?_append_right (Nat.le_refl _),
    Nat.sub_self]
  rfl

/-- Operations never change the settings. -/
theorem after_settings (ops : List Operation) (h : Handle) (w : World) :
    (after ops h w).1.settings = h.settings := by
  induction ops generalizing h w with
  | nil => rfl
  | cons op rest ih =>
    have step : (op.perform.exec h w).2.1.settings = h.settings :=
      (op.perform_cases h w).elim (fun kept => kept.1.settings) fun taken => taken.settings
    exact (ih _ _).trans step

/-- Operations never give a handle an end of stdin. -/
theorem after_stdin (closed : h.stdin.isSome = false) : (after ops h w).1.stdin.isSome = false := by
  induction ops generalizing h w with
  | nil => exact closed
  | cons op rest ih =>
    refine ih ?_
    exact (op.perform_cases h w).elim (fun kept => kept.1.isSome.trans closed) fun taken => taken.isSome

/-- As long as the end is there, no call returned normally after waiting for the end. -/
theorem outcomes_of_isSome (isOpen : (after ops h w).1.stdin.isSome) {n : Nat} {c : Ending}
    (called : ops[n]? = some (.ending c)) : (outcomes ops h w)[n]? ≠ some (.ok ()) := by
  induction ops generalizing h w n with
  | nil => cases called
  | cons op rest ih =>
    cases n with
    | succ n => exact ih isOpen called
    | zero =>
      cases called
      intro returned
      cases (Operation.ending c).perform_cases h w with
      | inl kept => exact kept.2 c rfl (Option.some.inj returned)
      | inr taken =>
        exact Bool.false_ne_true ((after_stdin taken.isSome).symm.trans isOpen)

/-- What could not be delivered is told of in time, unless the waiting fails first. Where a call cannot
deliver what was written to stdin, no call before it returned normally after waiting for the end, and
neither does this one: it raises what it could not deliver if its waiting comes to its end, so that this
surfaces, and the failure of the waiting otherwise. A call without a limit fails so only where nothing can
go on. -/
theorem undelivered_surfaces {c : Ending} (strict : h.settings.ignoresBrokenPipe = false)
    (reached : after before h w = (h₁, w₁)) (undelivered : c.Undelivered e h₁ w₁)
    (later : List Operation) :
    (outcomes (before ++ .ending c :: later) h w)[before.length]?
        = some (do let _ ← (c.waiting.exec h₁ w₁).1; throw e) ∧
      (∀ n ≤ before.length, ∀ d, (before ++ .ending c :: later)[n]? = some (.ending d) →
        (outcomes (before ++ .ending c :: later) h w)[n]? ≠ some (.ok ())) ∧
      ((c.waiting.exec h₁ w₁).1.isOk → Surfaces e (before ++ .ending c :: later) h w) ∧
      (c.Unlimited → ∀ x, (c.waiting.exec h₁ w₁).1 = .error x → x.Blocks) := by
  have strict₁ : h₁.settings.ignoresBrokenPipe = false := by
    have settings := after_settings before h w
    rw [reached] at settings
    rw [settings, strict]
  have isOpen : (after before h w).1.stdin.isSome := by
    rw [reached]
    exact undelivered.isOpen strict₁
  have outcome : (outcomes (before ++ .ending c :: later) h w)[before.length]?
      = some (do let _ ← (c.waiting.exec h₁ w₁).1; throw e) := by
    rw [outcomes_at, reached, c.exec_perform, undelivered.exec_perform strict₁]
    cases (c.waiting.exec h₁ w₁).1 <;> rfl
  have never : ∀ n ≤ before.length, ∀ d, (before ++ .ending c :: later)[n]? = some (.ending d) →
      (outcomes (before ++ .ending c :: later) h w)[n]? ≠ some (.ok ()) := by
    intro n within d called returned
    rcases Nat.lt_or_eq_of_le within with earlier | rfl
    · rw [List.getElem?_append_left earlier] at called
      rw [outcomes_append, List.getElem?_append_left (by rwa [length_outcomes])] at returned
      exact outcomes_of_isSome isOpen called returned
    · rw [outcome] at returned
      generalize (c.waiting.exec h₁ w₁).1 = waited at returned
      cases waited <;> cases returned
  refine ⟨outcome, never, fun awaited n d called returned => ⟨before.length, ?_, ?_⟩,
    fun unlimited x failed => undelivered.blocks strict₁ unlimited failed⟩
  · exact Nat.lt_of_not_le fun within => never n within d called returned
  · rw [outcome]
    generalize (c.waiting.exec h₁ w₁).1 = waited at awaited
    cases waited with
    | error _ => cases awaited
    | ok _ => rfl

/-- `a` piped into `b`; neither reads anything. -/
private def idlePair : Graph :=
  .pipe 102 (.leaf 100 (Engine.letterItem 'a') {}) (.leaf 101 (Engine.letterItem 'b') {}) {}

/-- In this system `a` ends at once, and `b` after ten seconds. -/
private def lateWorld : World :=
  { programs := [([.char 'a'], { reads := .nothing }),
      ([.char 'b'], { reads := .nothing, delay := Time.seconds 10 })] }

/-- The pair, started with an end of stdin for the caller. -/
private def lateStart : Except Failure Handle × Engine × World :=
  (Engine.spawn idlePair.toItem { stdin := Target.toItem Target.callerEnd }).exec {} lateWorld

/-- Whether the pair starts, and the handle is as it is tested for. -/
private def startsWith (test : Handle → World → Bool) : Bool :=
  (lateStart.1.toOption.map fun h => test h lateStart.2.2).getD false

private theorem exists_start {test : Handle → World → Bool} (started : startsWith test = true) :
    ∃ handle e' w', lateStart = (.ok handle, e', w') ∧ test handle w' = true := by
  unfold startsWith at started
  generalize lateStart = result at started
  obtain ⟨outcome, e', w'⟩ := result
  cases outcome with
  | error _ => cases started
  | ok handle => exact ⟨handle, e', w', rfl, started⟩

/-- Ready to wait for one second. -/
private def oneSecond : Limit := .ok (some (Time.seconds 1))

/-- Whether a call breaks the pipe after a byte was written. -/
private def breaks (c : Ending) (h : Handle) (w : World) : Bool :=
  let (h₁, w₁) := after [.write [120]] h w
  match (c.delivery.exec h₁ w₁).1 with
  | .ok (.error e) => !h.settings.ignoresBrokenPipe && e.isBrokenPipe
  | _ => false

private theorem undelivered_of_breaks {c : Ending} (broken : breaks c h w = true)
    (reached : after [.write [120]] h w = (h₁, w₁)) :
    h.settings.ignoresBrokenPipe = false ∧ ∃ e, c.Undelivered e h₁ w₁ := by
  simp only [breaks, reached] at broken
  split at broken
  · next e failed =>
    rw [Bool.and_eq_true, Bool.not_eq_true'] at broken
    exact ⟨broken.1, e, failed, broken.2⟩
  · cases broken

/-- Whether a failure is a broken pipe, if it is a failure. -/
private def broken? : Except Failure Unit → Option Bool
  | .ok () => none
  | .error e => some e.isBrokenPipe

/-- What was written to `a` is told of by the call that closes the end for good. -/
theorem close_tells_undelivered :
    ∃ handle e' w' e, lateStart = (.ok handle, e', w') ∧
      (outcomes [.write [120], .ending .close, .ending .close] handle w')[1]? = some (.error e) ∧
      Surfaces e [.write [120], .ending .close, .ending .close] handle w' := by
  have started : startsWith (fun h w => breaks .close h w && (Ending.close.waiting.exec
      (after [.write [120]] h w).1 (after [.write [120]] h w).2).1.isOk) = true := by
    decide +kernel
  obtain ⟨handle, e', w', begins, tested⟩ := exists_start started
  obtain ⟨⟨h₁, w₁⟩, reached⟩ : ∃ stage, after [.write [120]] handle w' = stage := ⟨_, rfl⟩
  rw [reached, Bool.and_eq_true] at tested
  obtain ⟨broken, awaited⟩ := tested
  obtain ⟨strict, e, undelivered⟩ := undelivered_of_breaks broken reached
  obtain ⟨outcome, -, surfaces, -⟩ :=
    undelivered_surfaces strict reached undelivered [.ending .close]
  refine ⟨handle, e', w', e, begins, outcome.trans ?_, surfaces awaited⟩
  dsimp only at awaited
  generalize (Ending.close.waiting.exec h₁ w₁).1 = waited at awaited
  cases waited with
  | error _ => cases awaited
  | ok _ => rfl

/-- A wait that runs out of time has taken the end away, and forgets what it could not deliver: the next
wait returns normally, and nothing ever told of what was written to `a`. -/
theorem timeout_hides_undelivered :
    ∃ handle e' w' h₁ w₁ e, lateStart = (.ok handle, e', w') ∧
      handle.settings.ignoresBrokenPipe = false ∧
      after [.write [120]] handle w' = (h₁, w₁) ∧ (Ending.wait oneSecond).Undelivered e h₁ w₁ ∧
      ¬ Surfaces e [.write [120], .ending (.wait oneSecond), .ending (.wait endless)] handle w' := by
  have started : startsWith (fun h w => breaks (.wait oneSecond) h w &&
      (outcomes [.write [120], .ending (.wait oneSecond), .ending (.wait endless)] h w).map broken?
        == [none, some false, none]) = true := by
    decide +kernel
  obtain ⟨handle, e', w', begins, tested⟩ := exists_start started
  rw [Bool.and_eq_true, beq_iff_eq] at tested
  obtain ⟨broken, told⟩ := tested
  obtain ⟨⟨h₁, w₁⟩, reached⟩ : ∃ stage, after [.write [120]] handle w' = stage := ⟨_, rfl⟩
  obtain ⟨strict, e, undelivered⟩ := undelivered_of_breaks broken reached
  refine ⟨handle, e', w', h₁, w₁, e, begins, strict, reached, undelivered, fun surfaces => ?_⟩
  have at? (n : Nat) : (outcomes [.write [120], .ending (.wait oneSecond), .ending (.wait endless)]
      handle w')[n]?.map broken? = [none, some false, none][n]? := by
    rw [← told, List.getElem?_map]
  have returned : (outcomes [.write [120], .ending (.wait oneSecond), .ending (.wait endless)]
      handle w')[2]? = some (.ok ()) := by
    obtain ⟨outcome, there, unbroken⟩ := Option.map_eq_some_iff.mp (at? 2)
    cases outcome with
    | ok _ => exact there
    | error _ => cases unbroken
  obtain ⟨m, earlier, raised⟩ := surfaces 2 (.wait endless) rfl returned
  have broke : [none, some false, none][m]? = some (some true) := by
    rw [← at? m, raised, ← undelivered.2]
    rfl
  -- neither the write nor the wait that ran out of time failed with a broken pipe
  obtain rfl | rfl : m = 0 ∨ m = 1 := by omega
  · cases broke
  · cases broke

end Handle

end Pipework
