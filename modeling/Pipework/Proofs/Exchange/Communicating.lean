import Pipework.Proofs.Exchange.Draining
import Pipework.Proofs.Exchange.Feeding

/-!
# A call is a run of the exchange

`communicate` begins with its input: it closes stdin where it has none (`Reaches.closes`), and otherwise
starts the pump that feeds. Then it takes stderr for a pump that drains (`Drainer`), reads stdout to its
end, waits for its pumps and raises what they failed with, and waits for the processes (`Reaches.waits`).
If all of that returns normally, the exchange has come to its last stage (`Reaches.collects`).
-/

namespace Pipework

variable {c : Exchange.Call} {s : Exchange} {w w' : World} {stage : Stage} {out : Option Outflow}
  {inn : Stream → Option Inflow} {h h' : Handle}

/-! ## Waiting for the processes -/

/-- A process that was waited for has ended, and its starter has taken notice of that. -/
theorem Sim.wait_ok {pid : Nat} {limit : Option Time} (ran : (wait pid limit).exec w = (.ok (), w')) :
    ∃ w₁ entries, (w.emit (.waited pid limit)).Plays w₁ entries ∧ hasEnded pid w₁ = true ∧
      w' = w₁.notice pid := by
  unfold wait at ran
  obtain ⟨_, _, emitted, ran⟩ := bind_ok ran
  cases emitted
  obtain ⟨outcome, w₁, entries, waited, plays, holds⟩ :=
    exec_runUntil (hasEnded pid) limit (w.emit (.waited pid limit))
  rw [exec_bind, waited] at ran
  cases outcome with
  | error e => cases ran
  | ok ended => cases ended with
    | false =>
      dsimp only at ran
      rw [if_neg Bool.false_ne_true, exec_bind] at ran
      cases ran
    | true =>
      dsimp only at ran
      rw [if_pos rfl, exec_bind, exec_look] at ran
      cases ran
      exact ⟨w₁, entries, plays, holds rfl, rfl⟩

theorem Handle.raise?_ok {e : Option Failure} (ran : (raise? e).exec w = (.ok (), w')) :
    e = none ∧ w' = w := by
  cases e with
  | none =>
    cases ran
    exact ⟨rfl, rfl⟩
  | some e => cases ran

namespace Exchange.Reaches

/-- The next process is waited for. -/
theorem wait {pid : Nat} {rest : List Nat} {limit : Option Time}
    (reaches : Reaches c s w (.waiting (pid :: rest)) out inn) (known : (s.world.exit? pid).isSome)
    (ran : (Sim.wait pid limit).exec w = (.ok (), w')) : Reaches c s w' (.waiting rest) out inn := by
  obtain ⟨w₁, entries, plays, ended, rfl⟩ := Sim.wait_ok ran
  have there : Reaches c s w₁ (.waiting (pid :: rest)) out inn :=
    (reaches.emit (.waited pid limit)).plays plays
  have exited : ∃ code, w₁.exit? pid = some (some code) := by
    obtain ⟨code, found⟩ := Option.isSome_iff_exists.mp (there.1.known pid known)
    cases code with
    | some code => exact ⟨code, found⟩
    | none => exact nomatch (World.not_hasEnded_of_exit? found).symm.trans ended
  obtain ⟨code, exited⟩ := exited
  exact there.tail (World.notice_passes w₁ pid).keeps fun entries => ⟨entries, .reaped rfl exited⟩

theorem waitAll {pids : List Nat} {deadline : Option Time}
    (reaches : Reaches c s w (.waiting pids) out inn) (known : ∀ pid ∈ pids, (s.world.exit? pid).isSome)
    (ran : (Handle.waitAll deadline pids).exec w = (.ok (), w')) :
    Reaches c s w' (.waiting []) out inn := by
  induction pids generalizing w with
  | nil =>
    cases ran
    exact reaches
  | cons pid rest ih =>
    unfold Handle.waitAll at ran
    rw [Sim.exec_bind, Handle.exec_remaining] at ran
    obtain ⟨_, w₁, waited, ran⟩ := Sim.bind_ok ran
    exact ih (reaches.wait (known pid List.mem_cons_self) waited)
      (fun other member => known other (List.mem_cons_of_mem _ member)) ran

/-- The call begins without an input: the caller's end of stdin is closed first. -/
theorem closes (reaches : Reaches c s w .before out inn) (noInput : c.input = none)
    (settings : h.settings = c.settings) (stdin : h.stdin = out.map Outflow.writer)
    (fresh : ∀ o, out = some o → o.Fresh)
    (leads : ∀ o, out = some o → w.channel? o.writer.descriptor = some (.writeEnd o.pipe)) :
    ∃ undelivered w' out', (Handle.closeEndpoint .stdin).exec h w
        = (.ok undelivered, h.without .stdin, w') ∧ w'.memory = w.memory ∧
      out'.map Outflow.written = out.map Outflow.written ∧
      (undelivered = none → ∀ o ∈ out', o.Done c.settings) ∧
      Reaches c s w' .reading out' fun t => (inn t).map Inflow.begin := by
  have begun : Reaches c s w .closing (out.map (·.begin c.chunks?)) fun t => (inn t).map Inflow.begin := by
    refine reaches.tail (.refl w) fun entries => ⟨entries, ?_⟩
    have step := Step.call (c := c) (s := { world := w, outflow := out, inflow := inn, entries }) rfl
      fun given => by simp [noInput] at given
    rwa [noInput] at step
  cases out with
  | none =>
    refine ⟨none, w, none, ?_, rfl, rfl, by rintro - _ ⟨⟩, ?_⟩
    · simp only [Handle.closeEndpoint, Handle.dropEndpoint, Owning.exec_bind, Owning.exec_attempt,
        Owning.exec_own, Owning.exec_change, stdin, Option.map_none, Owning.exec_pure]
      rfl
    · exact begun.tail (.refl w) fun entries => ⟨entries, .closed rfl (by rintro _ ⟨⟩)⟩
  | some o =>
    have fresh := fresh o rfl
    have chunks : c.chunks? = some [] := by rw [Exchange.Call.chunks?, noInput]
    have dropped {outcome : Except Failure Unit} {r : Writer} {w' : World}
        (closed : Writer.close.exec o.writer w = (outcome, r, w')) :
        (Handle.dropEndpoint .stdin).exec h w = (outcome, h.without .stdin, w') := by
      simp only [Handle.dropEndpoint, Owning.exec_bind, Owning.exec_own, Owning.exec_change, stdin,
        Option.map_some, Owning.exec_liftRunOn, closed, Owning.exec_lift, Sim.exec_ofExcept]
      rfl
    have shut {w' : World} {o' : Outflow} (isClosed : o'.writer.closed)
        (reaches : Reaches c s w' .closing (some o') fun t => (inn t).map Inflow.begin) :
        Reaches c s w' .reading (some o') fun t => (inn t).map Inflow.begin :=
      reaches.tail (.refl w') fun entries => ⟨entries, .closed rfl (by simpa using isClosed)⟩
    rw [chunks] at begun
    obtain ⟨r, w', memory, ⟨closed, reaches⟩ | ⟨closed, reaches⟩⟩ :=
      begun.close (o := o.begin (some [])) (by rintro ⟨⟩) fresh.isOpen rfl (leads o rfl)
    · refine ⟨none, w', some (o.begin (some [])).close, ?_, memory, rfl, fun _ => ?_, shut rfl reaches⟩
      · rw [Handle.closeEndpoint, Owning.exec_bind, Owning.exec_attempt, dropped closed]
        rfl
      · rintro _ ⟨⟩
        exact ⟨rfl, fun broken => absurd (fresh.broken.symm.trans broken) Bool.false_ne_true, by rintro ⟨⟩⟩
    · obtain ⟨line, told⟩ := Handle.closeEndpoint_of_broken (dropped closed) rfl
      refine ⟨_, _, some (o.begin (some [])).lose, told, memory, rfl, fun delivered => ?_,
        shut rfl (reaches.aside rfl rfl rfl rfl)⟩
      have kept : (h.without .stdin).settings = c.settings := settings
      rintro _ ⟨⟩
      refine ⟨rfl, fun _ => ?_, fun _ => rfl⟩
      rw [kept] at delivered
      cases ignored : c.settings.ignoresBrokenPipe with
      | true => rfl
      | false => simp [ignored] at delivered

/-- The call waits when its own pumps are done. -/
theorem waits {limit : Handle.Limit} {statuses : List ProcessStatus}
    (reaches : Reaches c s w .joining out inn) (fed : ∀ o ∈ out, o.Done c.settings)
    (drained : ∀ i ∈ inn .stderr, i.reader.closed) (stdin : h.stdin = none) (pids : h.pids = c.pids)
    (known : ∀ pid ∈ c.pids, (s.world.exit? pid).isSome) (foreign : ∀ p ∈ h.pumps, s.Foreign p)
    (ran : (Handle.wait limit).exec h w = (.ok statuses, h', w')) :
    Reaches c s w' .returned out inn ∧ h'.stderrOutput = h.stderrOutput := by
  have closed : (Handle.closeEndpoint .stdin).exec h w = (.ok none, { h with stdin := none }, w) := by
    simp only [Handle.closeEndpoint, Handle.dropEndpoint, Owning.exec_bind, Owning.exec_attempt,
      Owning.exec_own, Owning.exec_change, stdin, Owning.exec_pure]
  unfold Handle.wait at ran
  rw [Owning.exec_bind, closed] at ran
  obtain ⟨deadline, w₁, timed, ran⟩ := Owning.lift_bind_ok ran
  have same : w₁ = w := by
    have untouched : ((Handle.deadlineOf limit).exec w).2 = w := by cases limit <;> rfl
    rw [timed] at untouched
    exact untouched
  rw [same, Owning.exec_bind, Owning.exec_own] at ran
  obtain ⟨_, w₂, waited, ran⟩ := Owning.lift_bind_ok ran
  have joined : Reaches c s w (.waiting c.pids) out inn :=
    reaches.tail (.refl w) fun entries => ⟨entries, .joined rfl fed drained⟩
  have ended : Reaches c s w₂ (.waiting []) out inn := joined.waitAll known (pids ▸ waited)
  have alone : Reaches c s w₂ .returned out inn :=
    ended.tail (.refl w₂) fun entries => ⟨entries, .returns rfl⟩
  have others := alone.joinAll deadline foreign
  rw [Owning.exec_bind, Handle.exec_eachPump] at ran
  generalize Id.run ((Handle.onPumps (Handle.joinBy deadline) h.pumps).run w₂) = result at ran others
  obtain ⟨⟨outcome, pumps⟩, w₃⟩ := result
  cases outcome with
  | error e => cases ran
  | ok _ =>
    obtain ⟨_, w₄, raised, ran⟩ := Owning.lift_bind_ok ran
    obtain ⟨-, rfl⟩ := Handle.raise?_ok raised
    rw [Owning.exec_bind, Owning.exec_own] at ran
    obtain ⟨_, w₅, raised, ran⟩ := Owning.lift_bind_ok ran
    obtain ⟨-, rfl⟩ := Handle.raise?_ok raised
    cases ran
    exact ⟨others, rfl⟩

end Exchange.Reaches

/-! ## The second half of a call -/

/-- What a call does when its pumps are started. -/
def Handle.collect (undelivered : Option Failure) (errors : Option (Pump × ObjectRef)) (limit : Handle.Limit)
    (pumps : List Pump) : Owning Handle (Option Bytes) := do
  let output ← match (← Owning.own).stdout with
    | some r => pure (some (← r.readAll))
    | none => pure none
  let (outcome, pumps) ← onPumps (Pump.join none) pumps
  Sim.ofExcept outcome
  match errors with
  | some (_, ref) =>
    let collected := (← world).memory.bytesOf ref
    Owning.change fun h => { h with stderrOutput := some collected }
  | none => pure ()
  raise? undelivered
  raise? (firstError? pumps)
  let _ ← wait limit
  return output

/-- A call starts its pumps and then collects what comes. -/
theorem Handle.communicate_eq (input : Option Buffer) (limit : Handle.Limit) :
    communicate input limit = (do
      let (feeds, undelivered) ← match input with
        | some buffer => pure ([← takeFeed buffer], none)
        | none => pure ([], ← closeEndpoint .stdin)
      let errors ← takeErrors
      let (outcome, pumps) ← onPumps Pump.start (feeds ++ (errors.map (·.1)).toList)
      Sim.ofExcept outcome
      collect undelivered errors limit pumps) := rfl

/-- The thread of a pump that has finished is waited for at once. -/
theorem Handle.run_onPumps_join_finished {feeds : List Pump} (finished : ∀ p ∈ feeds, p.thread = .finished)
    (rest : List Pump) (w : World) : ∃ trace,
      Id.run ((onPumps (Pump.join none) (feeds ++ rest)).run w) =
        let others := Id.run ((onPumps (Pump.join none) rest).run { w with trace })
        ((others.1.1, feeds ++ others.1.2), others.2) := by
  induction feeds generalizing w with
  | nil => exact ⟨w.trace, rfl⟩
  | cons p feeds ih =>
    have joined : (Pump.join none).exec p w = (.ok (), p, w.emit (.joined p.threadName none)) := by
      simp only [Pump.join, Owning.exec_bind, Owning.exec_own, finished p List.mem_cons_self,
        Owning.exec_lift, Sim.exec_emit]
    obtain ⟨trace, others⟩ := ih (fun q member => finished q (List.mem_cons_of_mem _ member))
      (w.emit (.joined p.threadName none))
    refine ⟨trace, ?_⟩
    rw [List.cons_append, run_onPumps_cons, joined]
    dsimp only
    rw [others]
    rfl

/-- An end that a call can read from, and has not read from yet. -/
structure Inflow.Ready (w : World) (i : Inflow) : Prop where
  isOpen : i.reader.closed = false
  leads : w.pipeOf? i.reader.descriptor = some i.pipe
  taken : i.taken = []

theorem Inflow.Ready.keeps {i : Inflow} (ready : i.Ready w) (same : ∀ d, w'.pipeOf? d = w.pipeOf? d) :
    i.Ready w' :=
  ⟨ready.isOpen, (same _).trans ready.leads, ready.taken⟩

namespace Exchange

/-- The caller reads stdout, if it has an end of it, and goes on with what it read. -/
theorem Reaches.output {α : Type} {a : α} {next : Option Bytes → Owning Handle α}
    (reaches : Reaches c s w .reading out inn) (ready : ∀ i, inn .stdout = some i → i.Ready w)
    (ran : (match (inn .stdout).map Inflow.reader with
      | some r => do
        let b ← r.readAll
        let output ← pure (some b)
        next output
      | none => do
        let output ← pure none
        next output : Owning Handle α).exec h w = (.ok a, h', w')) :
    ∃ w₁ inn', Reaches c s w₁ .joining out inn' ∧ inn' .stderr = inn .stderr ∧
      (∀ t, (inn' t).map Inflow.early = (inn t).map Inflow.early) ∧ w.Keeps w₁ ∧
      w₁.memory = w.memory ∧ (next ((inn' .stdout).map Inflow.taken)).exec h w₁ = (.ok a, h', w') := by
  cases there : inn .stdout with
  | none =>
    rw [there] at ran
    have ended : Reaches c s w .joining out inn := reaches.tail (.refl w) fun entries =>
      ⟨entries, .ended rfl fun i member => nomatch there.symm.trans member⟩
    refine ⟨w, inn, ended, rfl, fun _ => rfl, .refl w, rfl, ?_⟩
    rw [there]
    exact ran
  | some i =>
    rw [there] at ran
    have ready := ready i there
    obtain ⟨b, w₁, read, ran⟩ := Owning.lift_bind_ok ran
    obtain ⟨joining, keeps, memory⟩ := reaches.readAll there ready.isOpen ready.leads read
    have taken : (i.take b).taken = b := by simp [Inflow.take, ready.taken]
    refine ⟨w₁, _, joining, Function.update_of_ne (by decide) .., map_update Inflow.early there rfl, keeps,
      memory, ?_⟩
    rw [Function.update_self, Option.map_some, taken]
    exact ran

/-- How a call drains stderr, if the caller has an end of it: into a byte array that is new. -/
inductive Drainer (c : Call) (w : World) (inn : Stream → Option Inflow) :
    Option (Pump × ObjectRef) → Prop
  | absent (nothing : inn .stderr = none) : Drainer c w inn none
  | present {i : Inflow} {ref : ObjectRef} (there : inn .stderr = some i) (ready : i.Ready w)
    (kind : ref.kind = .byteArray) (holds : w.memory.get? ref = some (.byteArray [])) (name logger : Text) :
    Drainer c w inn (some (Pump.make .drain (.reader i.reader) (.object ref) name logger
      { chunkSize := c.settings.chunkSize }, ref))

theorem Drainer.keeps {errors : Option (Pump × ObjectRef)} {inn' : Stream → Option Inflow}
    (drainer : Drainer c w inn errors) (leads : ∀ d, w'.pipeOf? d = w.pipeOf? d)
    (memory : w'.memory = w.memory) (same : inn' .stderr = inn .stderr) : Drainer c w' inn' errors := by
  cases drainer with
  | absent nothing => exact .absent (same.trans nothing)
  | present there ready kind holds name logger =>
    exact .present (same.trans there) (ready.keeps leads) kind (memory ▸ holds) name logger

/-- A call takes the caller's end of stderr, if there is one, for a pump. -/
theorem Drainer.take {inn₀ : Stream → Option Inflow} (reaches : Reaches c s w stage out inn₀)
    (inn : Stream → Option Inflow) (ready : ∀ i, inn .stderr = some i → i.Ready w)
    (stderr : h.stderr = (inn .stderr).map Inflow.reader) (settings : h.settings = c.settings) :
    ∃ errors w', Handle.takeErrors.exec h w = (.ok errors, { h with stderr := none }, w') ∧
      w'.descriptors = w.descriptors ∧ Reaches c s w' stage out inn₀ ∧ Drainer c w' inn errors := by
  unfold Handle.takeErrors
  rw [Owning.exec_bind, Owning.exec_own]
  dsimp only
  cases there : inn .stderr with
  | none =>
    rw [stderr, there]
    refine ⟨none, w, ?_, rfl, reaches, .absent there⟩
    obtain ⟨_, _, _, _, _, _, _, _, _⟩ := h
    rw [there] at stderr
    cases stderr
    rfl
  | some i =>
    rw [stderr, there]
    simp only [Option.map_some, Owning.exec_bind, Owning.exec_lift, Pump.exec_onMemory, Owning.exec_change,
      Owning.exec_pure, settings]
    refine ⟨_, { w with memory := (w.memory.add (.byteArray [])).2 }, rfl, rfl,
      reaches.aside rfl rfl rfl rfl, ?_⟩
    refine Drainer.present there ?_ (rfl : (w.memory.add (.byteArray [])).1.kind = .byteArray) ?_ _ _
    · exact (ready i there).keeps fun _ => rfl
    · exact Memory.get?_add w.memory _

/-- The pump that drains stderr is started, if there is one. -/
theorem Drainer.start {inn₀ : Stream → Option Inflow} {errors : Option (Pump × ObjectRef)}
    (reaches : Reaches c s w stage out inn₀) (drainer : Drainer c w inn errors) :
    ∃ w', Id.run ((Handle.onPumps Pump.start (errors.map (·.1)).toList).run w)
        = ((.ok (), (errors.map fun e => { e.1 with thread := .running }).toList), w') ∧
      Reaches c s w' stage out inn₀ ∧ Drainer c w' inn errors := by
  cases drainer with
  | absent nothing => exact ⟨w, rfl, reaches, .absent nothing⟩
  | @present i ref there ready kind holds name logger =>
    let p := Pump.make .drain (.reader i.reader) (.object ref) name logger
      { chunkSize := c.settings.chunkSize }
    refine ⟨w.emit (.threadStarted p.threadName), rfl, reaches.emit _, ?_⟩
    exact .present (c := c) (w := w.emit (.threadStarted p.threadName)) there
      (ready.keeps fun _ => rfl) kind holds name logger

/-- The pump that drains stderr is waited for, if there is one. -/
theorem Reaches.errors {w₀ : World} {errors : Option (Pump × ObjectRef)} {pumps : List Pump}
    (reaches : Reaches c s w .joining out inn) (sound : s.Sound w₀) (advanced : s.Advanced c)
    (drainer : Drainer c w inn errors)
    (ran : Id.run ((Handle.onPumps (Pump.join none)
      (errors.map fun e => { e.1 with thread := .running }).toList).run w) = ((.ok (), pumps), w'))
    (quiet : Handle.firstError? pumps = none) :
    ∃ inn', Reaches c s w' .joining out inn' ∧ inn' .stdout = inn .stdout ∧
      (∀ t, (inn' t).map Inflow.early = (inn t).map Inflow.early) ∧
      (∀ i ∈ inn' .stderr, i.reader.closed) ∧
      (errors.map fun e => w'.memory.bytesOf e.2) = (inn' .stderr).map Inflow.taken := by
  cases drainer with
  | absent nothing =>
    cases ran
    refine ⟨inn, reaches, rfl, fun _ => rfl, fun i there => (nomatch nothing.symm.trans there), ?_⟩
    rw [nothing]
    rfl
  | @present i ref there ready kind holds name logger =>
    rw [Option.map_some, Option.toList_some, Handle.run_onPumps_cons] at ran
    generalize joined : (Pump.join none).exec _ w = result at ran
    obtain ⟨outcome, p, w₁⟩ := result
    cases outcome with
    | error e => cases ran
    | ok _ =>
      cases ran
      have quiet : p.error = none := by
        cases failed : p.error with
        | none => rfl
        | some e => simp [Handle.firstError?, Handle.onPumps, failed] at quiet
      obtain ⟨b, collected, done⟩ := reaches.drains sound advanced there ready.isOpen ready.leads kind holds
        name logger rfl joined quiet
      refine ⟨_, done, Function.update_of_ne (by decide) .., map_update Inflow.early there rfl, ?_, ?_⟩
      · rw [Function.update_self]
        rintro _ ⟨⟩
        rfl
      · have taken : (i.take b).close.taken = b := by simp [Inflow.close, Inflow.take, ready.taken]
        rw [Function.update_self, Option.map_some, Option.map_some, taken]
        exact congrArg some collected

/-- When the pumps are started, the rest of a call that returns normally takes the exchange to its end. -/
theorem Reaches.collects {w₀ : World} {undelivered : Option Failure}
    {errors : Option (Pump × ObjectRef)} {limit : Handle.Limit} {output : Option Bytes}
    (reaches : Reaches c s w .reading out inn) (feeds : List Pump) (sound : s.Sound w₀)
    (advanced : s.Advanced c)
    (finished : ∀ p ∈ feeds, p.thread = .finished)
    (fed : Handle.firstError? feeds = none → undelivered = none → ∀ o ∈ out, o.Done c.settings)
    (ready : ∀ i, inn .stdout = some i → i.Ready w) (stdout : h.stdout = (inn .stdout).map Inflow.reader)
    (drainer : Drainer c w inn errors) (noErrors : h.stderrOutput = none) (stdin : h.stdin = none)
    (pids : h.pids = c.pids) (known : ∀ pid ∈ c.pids, (s.world.exit? pid).isSome)
    (foreign : ∀ p ∈ h.pumps, s.Foreign p)
    (ran : (Handle.collect undelivered errors limit
      (feeds ++ (errors.map fun e => { e.1 with thread := .running }).toList)).exec h w
        = (.ok output, h', w')) :
    ∃ inn', Reaches c s w' .returned out inn' ∧
      (∀ t, (inn' t).map Inflow.early = (inn t).map Inflow.early) ∧
      output = (inn' .stdout).map Inflow.taken ∧ h'.stderrOutput = (inn' .stderr).map Inflow.taken := by
  unfold Handle.collect at ran
  rw [Owning.exec_bind, Owning.exec_own] at ran
  dsimp only at ran
  rw [stdout] at ran
  obtain ⟨w₁, inn₁, joining, same, early₁, keeps, memory, ran⟩ := reaches.output ready ran
  have drainer := drainer.keeps keeps.pipeOf? memory same
  obtain ⟨trace, joined⟩ := Handle.run_onPumps_join_finished finished
    (errors.map fun e => { e.1 with thread := .running }).toList w₁
  rw [Owning.exec_bind, Handle.exec_onPumps, joined] at ran
  have waiting : Reaches _ _ { w₁ with trace } _ _ _ := joining.aside rfl rfl rfl rfl
  generalize drained : Id.run ((Handle.onPumps (Pump.join none)
    (errors.map fun e => { e.1 with thread := .running }).toList).run { w₁ with trace }) = result at ran
  obtain ⟨⟨outcome, pumps⟩, w₂⟩ := result
  dsimp only at ran
  obtain ⟨_, w₃, success, ran⟩ := Owning.lift_bind_ok ran
  cases success
  have rest : (do
      Handle.raise? undelivered
      Handle.raise? (Handle.firstError? (feeds ++ pumps))
      let _ ← Handle.wait limit
      pure ((inn₁ .stdout).map Inflow.taken) : Owning Handle (Option Bytes)).exec
        { h with stderrOutput := errors.map fun e => w₂.memory.bytesOf e.2 } w₂
          = (.ok output, h', w') := by
    cases errors with
    | none =>
      rw [Option.map_none, ← noErrors]
      exact ran
    | some e => exact ran
  obtain ⟨_, w₃, raised, rest⟩ := Owning.lift_bind_ok rest
  obtain ⟨delivered, rfl⟩ := Handle.raise?_ok raised
  obtain ⟨_, w₄, raised, rest⟩ := Owning.lift_bind_ok rest
  obtain ⟨quiet, rfl⟩ := Handle.raise?_ok raised
  obtain ⟨statuses, h₂, w₅, waited, rest⟩ := Owning.bind_ok rest
  rw [Owning.exec_pure] at rest
  cases rest
  obtain ⟨quietFeeds, quietDrain⟩ : Handle.firstError? feeds = none ∧ Handle.firstError? pumps = none := by
    simpa [Handle.firstError?, List.findSome?_append] using quiet
  obtain ⟨inn₂, done, stdoutSame, early₂, closed, collected⟩ := waiting.errors sound advanced
    (drainer.keeps (fun _ => rfl) rfl rfl) drained quietDrain
  obtain ⟨returned, kept⟩ := done.waits
    (h := { h with stderrOutput := errors.map fun e => w₄.memory.bytesOf e.2 })
    (fed quietFeeds delivered) closed stdin pids known foreign waited
  refine ⟨inn₂, returned, fun t => (early₂ t).trans (early₁ t), ?_, kept.trans collected⟩
  rw [stdoutSame]

end Exchange

end Pipework
