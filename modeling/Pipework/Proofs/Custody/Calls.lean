import Pipework.Proofs.Custody.Pumps
import Pipework.Proofs.Engine.Handover

/-!
# The calls of a handle

Every call of a handle is a run of custody, and leaves an end of the handle as it is or takes it away
(`Handle.Tended`), whatever failure it comes to. What a call closes it closes as the owner, so that closing an
end cannot fail but by what the end held back. Of the calls only `communicate` makes owners: the pumps that
it starts take over ends of the handle, and are a crew of its own beside the handle's pumps.
-/

namespace Pipework

namespace Handle

open Custody World

/-- The descriptor that a handle holds by its end of a stream. -/
def holding (h : Handle) : Stream → Option Nat
  | .stdin => h.stdin.bind Writer.holding
  | .stdout => h.stdout.bind Reader.holding
  | .stderr => h.stderr.bind Reader.holding

/-- Who holds what: the handle by its ends, its pumps, and the pumps of a crew, which have the next numbers. -/
def custody (h : Handle) (crew : List Pump) (w : World) : Custody := ⟨w, heldBy h.holding (h.pumps ++ crew)⟩

/-- What is true of a handle since a moment of custody, and since an earlier state of the handle. -/
structure Tended (c : Custody) (h₀ : Handle) (crew : List Pump) (h : Handle) (w : World) : Prop where
  run : Run c (h.custody crew w)
  pumps : ∀ p ∈ h.pumps, p.Settled
  /-- A pump that still runs has been left alone. -/
  running : ∀ p ∈ h.pumps, p.thread = .running → p ∈ h₀.pumps
  count : h.pumps.length = h₀.pumps.length
  processes : h.processes = h₀.processes
  settings : h.settings = h₀.settings
  /-- An end is what it was, or is gone. -/
  ends : ∀ s d, h.endOf s = some d → h₀.endOf s = some d

variable {α : Type} {c : Custody} {h₀ h h' : Handle} {crew : List Pump} {w w' : World} {s : Stream}

theorem endOf_without (h : Handle) (s t : Stream) :
    (h.without s).endOf t = if t = s then none else h.endOf t := by
  cases s <;> cases t <;> rfl

theorem holding_without (h : Handle) (s : Stream) :
    (h.without s).holding = Function.update h.holding s none := by
  funext t
  cases s <;> cases t <;> rfl

/-- A change at one end of a handle is a change at one owner. -/
theorem heldBy_update (ends : Stream → Option Nat) (pumps : List Pump) (s : Stream) (d : Option Nat) :
    heldBy (Function.update ends s d) pumps = Function.update (heldBy ends pumps) (.endpoint s) d := by
  funext o
  cases o with
  | endpoint t =>
    by_cases same : t = s
    · simp [heldBy, same]
    · simp [heldBy, same]
  | pump number => rw [Function.update_of_ne (by simp)]; rfl

/-- A handle without ends. -/
def bare (h : Handle) : Handle := ((h.without .stdin).without .stdout).without .stderr

theorem endOf_bare (h : Handle) (s : Stream) : h.bare.endOf s = none := by cases s <;> rfl

/-- Close the ends of a handle, one after the other, whatever they held back. -/
def closeEach : Owning Handle Unit := do
  let _ ← closeEndpoint .stdin
  let _ ← closeEndpoint .stdout
  let _ ← closeEndpoint .stderr

/-- What closing a handle does when its ends are closed. -/
def awaitEnd (undelivered : Option Failure) : Owning Handle (List ProcessStatus) := do
  waitAll none (← Owning.own).pids
  eachPump (Pump.join none)
  raise? undelivered
  statuses

/-- What abandoning a handle does when its ends are closed. -/
def leaveBehind : Owning Handle Unit := do
  let h ← Owning.own
  let pids ← unfinished h.pids
  if !pids.isEmpty then
    say .warning ("Handle abandoned with " ++ Text.ofNat pids.length
      ++ " running process(es), reaping in background")
    startReaper h.logger pids

/-- To abandon a handle is to close its ends, and then to see to the processes. -/
theorem abandon_eq : abandon = (do closeEach; leaveBehind) := by
  simp only [abandon, closeEach, leaveBehind, Stream.all, List.forIn_cons, List.forIn_nil, bind_assoc, pure_bind]

/-- Who owns something is a pump that runs, when the handle has no ends. -/
theorem running_of_holds (bare : ∀ s, h.endOf s = none) (settled : ∀ p ∈ h.pumps ++ crew, p.Settled)
    {d : Nat} (holds : (h.custody crew w).Holds d) :
    ∃ p ∈ h.pumps ++ crew, p.thread = .running ∧ p.holding = some d := by
  obtain ⟨o, mine⟩ := holds
  cases o with
  | endpoint s =>
    have absent := bare s
    cases s with
    | stdin =>
      have gone : h.stdin = none := by simpa [endOf] using absent
      simp [custody, heldBy, holding, gone] at mine
    | stdout =>
      have gone : h.stdout = none := by simpa [endOf] using absent
      simp [custody, heldBy, holding, gone] at mine
    | stderr =>
      have gone : h.stderr = none := by simpa [endOf] using absent
      simp [custody, heldBy, holding, gone] at mine
  | pump number =>
    obtain ⟨p, there, mine⟩ := Option.bind_eq_some_iff.mp mine
    have member := List.mem_of_getElem? there
    refine ⟨p, member, ?_, mine⟩
    rcases settled p member with ⟨finished, gone⟩ | ⟨running, -⟩
    · rw [Pump.Settled.holding (.inl ⟨finished, gone⟩) finished] at mine
      cases mine
    · exact running

namespace Tended

theorem refl (pumps : ∀ p ∈ h.pumps, p.Settled) : Tended (h.custody crew w) h crew h w :=
  ⟨.refl, pumps, fun _ member _ => member, rfl, rfl, rfl, fun _ _ => id⟩

theorem trans {h₁ : Handle} {w₁ : World} (first : Tended c h₀ crew h₁ w₁)
    (second : Tended (h₁.custody crew w₁) h₁ crew h w) : Tended c h₀ crew h w where
  run := first.run.trans second.run
  pumps := second.pumps
  running p member runs := first.running p (second.running p member runs) runs
  count := second.count.trans first.count
  processes := second.processes.trans first.processes
  settings := second.settings.trans first.settings
  ends s d there := first.ends s d (second.ends s d there)

/-- A step of the system in which nothing changes hands. -/
theorem lift {m : Sim α} (within : ∀ f, m.Preserves (c.Within f)) :
    (liftM m : Owning Handle α).Preserves (Tended c h₀ crew) :=
  .lift fun _ w tended => { tended with run := within _ w tended.run }

theorem ofExcept (e : Except Failure α) :
    (liftM (Sim.ofExcept e) : Owning Handle α).Preserves (Tended c h₀ crew) := .lift fun _ => .ofExcept e

theorem world : (liftM Pipework.world : Owning Handle World).Preserves (Tended c h₀ crew) :=
  .lift fun _ => .get

theorem raise? (e : Option Failure) :
    (liftM (Handle.raise? e) : Owning Handle Unit).Preserves (Tended c h₀ crew) := by
  refine .lift fun _ => ?_
  cases e with
  | none => exact .pure ()
  | some e => exact .throw e

theorem deadlineOf (limit : Limit) :
    (liftM (Handle.deadlineOf limit) : Owning Handle (Option Time)).Preserves (Tended c h₀ crew) :=
  .lift fun _ => .bind .get fun _ => .bind (.ofExcept _) fun _ => .pure _

theorem say (level : Level) (text : Text) : (Handle.say level text).Preserves (Tended c h₀ crew) :=
  .bind .own fun _ => lift fun _ => Within.note _ _ _

theorem statuses : Handle.statuses.Preserves (Tended c h₀ crew) :=
  .bind .own fun _ => .bind world fun _ => .pure _

theorem poll : Handle.poll.Preserves (Tended c h₀ crew) :=
  .bind .own fun _ => lift fun _ => Within.watchable.allEnded _

theorem kill : Handle.kill.Preserves (Tended c h₀ crew) :=
  .bind .own fun _ => lift fun _ => Within.watchable.eachAlive Within.watchable.kill _

theorem terminate : Handle.terminate.Preserves (Tended c h₀ crew) :=
  .bind .own fun _ => lift fun _ => Within.watchable.eachAlive Within.watchable.terminate _

theorem waitOrKill (deadline : Time) (pids : List Nat) :
    (Handle.waitOrKill deadline pids).Preserves (Tended c h₀ crew) := by
  induction pids with
  | nil => exact .pure ()
  | cons pid rest ih =>
    refine .bind (lift fun _ => .attempt (.bind (Watchable.remaining _) fun _ => Within.watchable.wait _ _))
      fun outcome => ?_
    split
    · exact ih
    · exact .bind (say _ _) fun _ => .bind (lift fun _ => Within.watchable.kill _) fun _ =>
        .bind (lift fun _ => Within.watchable.wait _ _) fun _ => ih
    · exact .bind (.throw _) fun _ => ih

/-! ## Closing an end -/

/-- One end of a handle becomes another, or goes. -/
theorem replace {d : Option Nat} (tended : Tended c h₀ crew h w) (pumps : h'.pumps = h.pumps)
    (processes : h'.processes = h.processes) (settings : h'.settings = h.settings)
    (holding : h'.holding = Function.update h.holding s d)
    (ends : ∀ t d, h'.endOf t = some d → h.endOf t = some d)
    (run : Run c ⟨w', Function.update (h.custody crew w).held (.endpoint s) d⟩) :
    Tended c h₀ crew h' w' where
  run := by
    rw [custody, pumps, holding, heldBy_update]
    exact run
  pumps := by
    rw [pumps]
    exact tended.pumps
  running := by
    rw [pumps]
    exact tended.running
  count := by
    rw [pumps]
    exact tended.count
  processes := processes.trans tended.processes
  settings := settings.trans tended.settings
  ends t d there := tended.ends t d (ends t d there)

/-- An end that is closed is gone, and what its owner had with it. -/
theorem without (tended : Tended c h₀ crew h w)
    (run : Run c ⟨w', Function.update (h.custody crew w).held (.endpoint s) none⟩) :
    Tended c h₀ crew (h.without s) w' := by
  refine tended.replace ?_ ?_ ?_ (holding_without h s) (fun t d there => ?_) run
  · cases s <;> rfl
  · cases s <;> rfl
  · cases s <;> rfl
  · rw [endOf_without] at there
    split at there
    · cases there
    · exact there

/-- The writer on stdin is put back after something was done with it. -/
theorem putWriter {r r' : Writer} (tended : Tended c h₀ crew h w) (stdin : h.stdin = some r)
    (same : r'.descriptor = r.descriptor)
    (run : Run c ⟨w', Function.update (h.custody crew w).held (.endpoint .stdin) r'.holding⟩) :
    Tended c h₀ crew { h with stdin := some r' } w' := by
  refine tended.replace (s := .stdin) rfl rfl rfl ?_ (fun t d there => ?_) run
  · funext t
    cases t <;> rfl
  · cases t with
    | stdin => simpa [endOf, stdin, same] using there
    | stdout => exact there
    | stderr => exact there

section Sound

variable (sound : c.Sound)
include sound

private theorem dropReader (tended : Tended c h₀ crew h w) {s : Stream} (r? : Option Reader)
    (holds : h.holding s = r?.bind Reader.holding)
    (dropped : (Handle.dropEndpoint s).exec h w =
      ((r?.elim (.ok ()) fun r => ((Pump.closeReader r).exec w).1), h.without s,
        r?.elim w fun r => ((Pump.closeReader r).exec w).2)) :
    ∃ w', (Handle.dropEndpoint s).exec h w = (.ok (), h.without s, w') ∧
      Tended c h₀ crew (h.without s) w' := by
  cases r? with
  | none =>
    refine ⟨w, dropped, tended.without ?_⟩
    have nothing : (h.custody crew w).held (.endpoint s) = none := holds
    rw [← nothing, Function.update_eq_self]
    exact tended.run
  | some r =>
    obtain ⟨w', closed, run⟩ := tended.run.closeReader sound (o := .endpoint s) holds
    have given : (Pump.closeReader r).exec w = (.ok (), w') := by
      simp only [Pump.closeReader, Sim.exec_bind, Sim.exec_runOn, closed, Sim.exec_ofExcept]
    rw [Option.elim_some, Option.elim_some, given] at dropped
    exact ⟨w', dropped, tended.without run⟩

/-- Giving up an end fails only where nobody can read what it held. -/
theorem dropEndpoint (tended : Tended c h₀ crew h w) (s : Stream) :
    ∃ outcome w', (Handle.dropEndpoint s).exec h w = (outcome, h.without s, w') ∧
      Tended c h₀ crew (h.without s) w' ∧ (s ≠ .stdin → outcome = .ok ()) ∧
      ∀ e, outcome = .error e → e = .system .brokenPipe := by
  cases s with
  | stdin =>
    cases stdin : h.stdin with
    | none =>
      have nothing : (h.custody crew w).held (.endpoint .stdin) = none := by
        simp [custody, heldBy, holding, stdin]
      refine ⟨.ok (), w, ?_, tended.without ?_, fun other => absurd rfl other, fun _ failed => by cases failed⟩
      · simp only [Handle.dropEndpoint, Owning.exec_bind, Owning.exec_own, Owning.exec_change, stdin,
          Owning.exec_pure]
        rfl
      · rw [← nothing, Function.update_eq_self]
        exact tended.run
    | some r =>
      have holds : (h.custody crew w).held (.endpoint .stdin) = r.holding := by
        simp [custody, heldBy, holding, stdin]
      obtain ⟨outcome, r', w', closed, -, run, broken, -⟩ :=
        tended.run.closeWriter sound (o := .endpoint .stdin) holds
      refine ⟨outcome, w', ?_, tended.without run, fun other => absurd rfl other, broken⟩
      simp only [Handle.dropEndpoint, Owning.exec_bind, Owning.exec_own, Owning.exec_change, stdin,
        Owning.exec_liftRunOn, closed, Owning.exec_lift, Sim.exec_ofExcept]
      rfl
  | stdout =>
    obtain ⟨w', dropped, tended'⟩ := dropReader sound tended (s := .stdout) h.stdout rfl (by
      simp only [Handle.dropEndpoint, Owning.exec_bind, Owning.exec_own, Owning.exec_change]
      cases h.stdout <;> rfl)
    exact ⟨_, w', dropped, tended', fun _ => rfl, fun _ failed => by cases failed⟩
  | stderr =>
    obtain ⟨w', dropped, tended'⟩ := dropReader sound tended (s := .stderr) h.stderr rfl (by
      simp only [Handle.dropEndpoint, Owning.exec_bind, Owning.exec_own, Owning.exec_change]
      cases h.stderr <;> rfl)
    exact ⟨_, w', dropped, tended', fun _ => rfl, fun _ failed => by cases failed⟩

/-- Closing an end never fails; it answers what could not be delivered, unless that is ignored. -/
theorem closeEndpoint (tended : Tended c h₀ crew h w) (s : Stream) :
    ∃ e w', (Handle.closeEndpoint s).exec h w = (.ok e, h.without s, w') ∧
      Tended c h₀ crew (h.without s) w' ∧ (s ≠ .stdin → e = none) ∧
      ∀ x, e = some x → x = .system .brokenPipe := by
  obtain ⟨outcome, w', dropped, tended', output, broken⟩ := tended.dropEndpoint sound s
  cases outcome with
  | ok _ =>
    refine ⟨none, w', ?_, tended', fun _ => rfl, fun _ failed => by cases failed⟩
    rw [Handle.closeEndpoint, Owning.exec_bind, Owning.exec_attempt, dropped]
    rfl
  | error e =>
    obtain rfl := broken e rfl
    obtain ⟨line, told⟩ := closeEndpoint_of_broken dropped rfl
    refine ⟨_, _, told, { tended' with run := tended'.run.of_same rfl rfl rfl rfl rfl rfl rfl },
      fun other => ?_, fun x same => ?_⟩
    · cases output other
    · split at same <;> cases same
      rfl

theorem preserves_closeEndpoint (s : Stream) : (Handle.closeEndpoint s).Preserves (Tended c h₀ crew) := by
  intro h w tended
  obtain ⟨_, _, closed, tended', -⟩ := tended.closeEndpoint sound s
  rw [closed]
  exact tended'

/-! ## Waiting -/

/-- Waiting for the pumps. -/
theorem eachPump (deadline : Option Time) :
    (Handle.eachPump (Handle.joinBy deadline)).Preserves (Tended c h₀ crew) := by
  intro h w tended
  let Known (p : Pump) : Prop := p.Settled ∧ (p.thread = .running → p ∈ h₀.pumps)
  have each (p : Pump) (f : Owner → Option Nat) (o : Owner) (w : World) (known : Known p)
      (holds : f o = p.holding) (run : Run c ⟨w, f⟩) :
      Known ((Handle.joinBy deadline).exec p w).2.1 ∧
        Run c ⟨((Handle.joinBy deadline).exec p w).2.2,
          Function.update f o ((Handle.joinBy deadline).exec p w).2.1.holding⟩ := by
    unfold Handle.joinBy
    rw [Owning.exec_bind, Owning.exec_lift, exec_remaining]
    obtain ⟨settled, same, later⟩ := run.join sound holds known.1 (deadline.map fun d => max 0 (d - w.clock))
    exact ⟨⟨settled, fun runs => by rw [same runs]; exact known.2 (same runs ▸ runs)⟩, later⟩
  obtain ⟨length, known, -, -, run⟩ := Custody.Run.onPumps (Handle.joinBy deadline) Known Known h.holding [] crew
    each h.pumps (fun p member => ⟨tended.pumps p member, tended.running p member⟩) tended.run
  rw [exec_eachPump]
  exact
    { run
      pumps := fun p member => ((known p member).elim id id).1
      running := fun p member => ((known p member).elim id id).2
      count := length.trans tended.count
      processes := tended.processes
      settings := tended.settings
      ends := tended.ends }

theorem wait (limit : Limit) : (Handle.wait limit).Preserves (Tended c h₀ crew) :=
  .bind (preserves_closeEndpoint sound _) fun _ => .bind (deadlineOf _) fun _ => .bind .own fun _ =>
    .bind (lift fun _ => Within.watchable.waitAll _ _) fun _ => .bind (eachPump sound _) fun _ =>
      .bind (raise? _) fun _ => .bind .own fun _ => .bind (raise? _) fun _ => statuses

theorem check (limit : Limit) : (Handle.check limit).Preserves (Tended c h₀ crew) := by
  refine .bind (wait sound limit) fun statuses => ?_
  dsimp only
  split
  · exact .bind (say _ _) fun _ => .bind (.throw _) fun _ => .pure _
  · exact .pure _

/-! ## The end -/

/-- All ends can be closed, and of the three only stdin's can have held something back. -/
private theorem closeEnds (tended : Tended c h₀ crew h w) : ∃ undelivered w₁ w₂ w',
    (Handle.closeEndpoint .stdin).exec h w = (.ok undelivered, h.without .stdin, w₁) ∧
    (Handle.closeEndpoint .stdout).exec (h.without .stdin) w₁
      = (.ok none, (h.without .stdin).without .stdout, w₂) ∧
    (Handle.closeEndpoint .stderr).exec ((h.without .stdin).without .stdout) w₂ = (.ok none, h.bare, w') ∧
    Tended c h₀ crew h.bare w' ∧ ∀ x, undelivered = some x → x = .system .brokenPipe := by
  obtain ⟨undelivered, w₁, closed₁, tended₁, -, broken⟩ := tended.closeEndpoint sound .stdin
  obtain ⟨e₂, w₂, closed₂, tended₂, none₂, -⟩ := tended₁.closeEndpoint sound .stdout
  obtain ⟨e₃, w₃, closed₃, tended₃, none₃, -⟩ := tended₂.closeEndpoint sound .stderr
  cases none₂ (by decide)
  cases none₃ (by decide)
  exact ⟨undelivered, w₁, w₂, w₃, closed₁, closed₂, closed₃, tended₃, broken⟩

/-- To close a handle is to close its ends, and then to wait for what is left. -/
theorem exec_close (tended : Tended c h₀ crew h w) (discards : Bool) : ∃ undelivered w',
    ((Handle.closeEndpoint .stdin).exec h w).1 = .ok undelivered ∧
    (Handle.close discards).exec h w
      = (Handle.awaitEnd (if discards then none else undelivered)).exec h.bare w' ∧
    Tended c h₀ crew h.bare w' ∧ ∀ x, undelivered = some x → x = .system .brokenPipe := by
  obtain ⟨undelivered, w₁, w₂, w', stdin, stdout, stderr, tended', broken⟩ := tended.closeEnds sound
  refine ⟨undelivered, w', by rw [stdin], ?_, tended', broken⟩
  have raised : (do
      if !discards then Handle.raise? ([undelivered, none, none].findSome? id)
      Handle.statuses : Owning Handle (List ProcessStatus))
      = (do Handle.raise? (if discards then none else undelivered); Handle.statuses) := by
    cases discards <;> cases undelivered <;> rfl
  simp only [Handle.close, Handle.awaitEnd, ← raised, Owning.exec_bind, stdin, stdout, stderr]

theorem exec_closeEach (tended : Tended c h₀ crew h w) : ∃ w',
    Handle.closeEach.exec h w = (.ok (), h.bare, w') ∧ Tended c h₀ crew h.bare w' := by
  obtain ⟨undelivered, w₁, w₂, w', stdin, stdout, stderr, tended', -⟩ := tended.closeEnds sound
  refine ⟨w', ?_, tended'⟩
  simp only [Handle.closeEach, Owning.exec_bind, stdin, stdout, stderr, Owning.exec_pure]

/-- Nothing that the ends held back keeps a handle from being abandoned. -/
theorem exec_abandon (tended : Tended c h₀ crew h w) : ∃ w',
    Handle.abandon.exec h w = Handle.leaveBehind.exec h.bare w' ∧ Tended c h₀ crew h.bare w' := by
  obtain ⟨w', closed, tended'⟩ := tended.exec_closeEach sound
  refine ⟨w', ?_, tended'⟩
  rw [abandon_eq, Owning.exec_bind, closed]

theorem awaitEnd (undelivered : Option Failure) : (Handle.awaitEnd undelivered).Preserves (Tended c h₀ crew) :=
  .bind .own fun _ => .bind (lift fun _ => Within.watchable.waitAll _ _) fun _ => .bind (eachPump sound none) fun _ =>
    .bind (raise? _) fun _ => statuses

theorem close (discards : Bool) : (Handle.close discards).Preserves (Tended c h₀ crew) := by
  intro h w tended
  obtain ⟨_, w', -, closed, tended', -⟩ := tended.exec_close sound discards
  rw [closed]
  exact awaitEnd sound _ _ _ tended'

theorem stop (grace : Except Failure Time) : (Handle.stop grace).Preserves (Tended c h₀ crew) :=
  .bind terminate fun _ => .bind world fun _ => .bind (ofExcept _) fun _ => .bind .own fun _ =>
    .bind (waitOrKill _ _) fun _ => close sound _

omit sound in
theorem leaveBehind : Handle.leaveBehind.Preserves (Tended c h₀ crew) := by
  refine .bind .own fun _ => .bind (lift fun _ => Within.watchable.unfinished _) fun pids => ?_
  split
  · exact .bind (say _ _) fun _ => lift fun _ => Within.startReaper _ _
  · exact .pure ()

theorem abandon : Handle.abandon.Preserves (Tended c h₀ crew) := by
  intro h w tended
  obtain ⟨w', abandoned, tended'⟩ := tended.exec_abandon sound
  rw [abandoned]
  exact leaveBehind _ _ tended'

/-! ## Reading and writing -/

theorem read : Handle.read.Preserves (Tended c h₀ crew) := by
  intro h w tended
  unfold Handle.read
  rw [Owning.exec_bind, Owning.exec_own]
  dsimp only
  cases stdout : h.stdout with
  | none => exact tended
  | some r =>
    have holds : (h.custody crew w).held (.endpoint .stdout) = r.holding := by
      simp [custody, heldBy, holding, stdout]
    exact { tended with run := Within.readAll sound holds w tended.run }

omit sound in
theorem write (data : Bytes) : (Handle.write data).Preserves (Tended c h₀ crew) := by
  intro h w tended
  unfold Handle.write
  rw [Owning.exec_bind, Owning.exec_own]
  dsimp only
  cases stdin : h.stdin with
  | none => exact tended
  | some r =>
    have holds : (h.custody crew w).held (.endpoint .stdin) = r.holding := by
      simp [custody, heldBy, holding, stdin]
    obtain ⟨outcome, r', wrote, descriptor, same⟩ := Writer.exec_write_cases r data w
    have put : Tended c h₀ crew { h with stdin := some r' } w := by
      refine tended.putWriter stdin descriptor ?_
      rw [same, ← holds, Function.update_eq_self]
      exact tended.run
    simp only [Owning.exec_bind, Owning.exec_liftRunOn, wrote, Owning.exec_change, Owning.exec_lift,
      Sim.exec_ofExcept]
    exact put

end Sound

end Tended

end Handle

end Pipework
