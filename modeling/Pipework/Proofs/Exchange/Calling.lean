import Pipework.Proofs.Exchange.Communicating

/-!
# Calls of a handle

A call relies on what its handle owns: the caller's ends of pipes are open and nobody else's
(`Handle.Owned`). From there an exchange begins soundly, and a write before the call is one step of it
(`Owned.write`). If the call returns normally, it has come to the end of a run, and what it answers is what
the run shows (`Owned.communicates`).
-/

namespace Pipework

variable {w w' : World} {h h' : Handle}

/-! ## What a caller owns -/

/-- A descriptor leads to an end of a pipe that nobody else has. -/
structure World.Owned (w : World) (d : Nat) (c : Channel) (pipe : Nat) : Prop where
  leads : w.channel? d = some c
  isEnd : c.pipe? = some pipe
  known : pipe < w.pipes.length
  exclusive : w.Exclusive d c

theorem World.Owned.pipeOf? {d pipe : Nat} {c : Channel} (owned : w.Owned d c pipe) :
    w.pipeOf? d = some pipe :=
  (World.pipeOf?_of_channel? owned.leads).trans owned.isEnd

namespace Handle

/-- What a call relies on: the caller's ends are open and nobody else's, they are on different pipes, and
the handle's own pumps are on others. -/
structure Owned (h : Handle) (w : World) : Prop where
  writer : ∀ r, h.stdin = some r → r.closed = false ∧ ∃ pipe, w.Owned r.descriptor (.writeEnd pipe) pipe
  reader : ∀ t r, h.reader? t = some r →
    r.closed = false ∧ ∃ pipe, w.Owned r.descriptor (.readEnd pipe) pipe
  apart : ∀ r, h.stdin = some r → ∀ t r', h.reader? t = some r' →
    w.pipeOf? r.descriptor ≠ w.pipeOf? r'.descriptor
  distinct : ∀ t u r r', h.reader? t = some r → h.reader? u = some r' →
    w.pipeOf? r.descriptor = w.pipeOf? r'.descriptor → t = u
  processes : ∀ pid ∈ h.pids, (w.exit? pid).isSome
  pumps : ∀ p ∈ h.pumps, (h.exchange w).Foreign p
  noErrors : h.stderrOutput = none

/-- The call of a handle with an input. -/
def call (h : Handle) (input : Option Input) : Exchange.Call :=
  { input, settings := h.settings, pids := h.pids }

namespace Owned

theorem outflow (owned : h.Owned w) {o : Outflow} (stdin : (h.exchange w).outflow = some o) :
    h.stdin = some o.writer ∧ w.Owned o.writer.descriptor (.writeEnd o.pipe) o.pipe ∧ o.Fresh ∧
      o.written = o.writer.held := by
  obtain ⟨r, there, rfl⟩ := Option.map_eq_some_iff.mp stdin
  obtain ⟨isOpen, pipe, mine⟩ := owned.writer r there
  dsimp only
  rw [mine.pipeOf?]
  exact ⟨there, mine, ⟨rfl, rfl, rfl, isOpen⟩, rfl⟩

theorem inflow (owned : h.Owned w) {t : Stream} {i : Inflow} (there : (h.exchange w).inflow t = some i) :
    h.reader? t = some i.reader ∧ i.reader.closed = false ∧
      w.Owned i.reader.descriptor (.readEnd i.pipe) i.pipe ∧ i.early = [] ∧ i.taken = [] := by
  obtain ⟨r, found, rfl⟩ := Option.map_eq_some_iff.mp there
  obtain ⟨isOpen, pipe, mine⟩ := owned.reader t r found
  dsimp only
  rw [mine.pipeOf?]
  exact ⟨found, isOpen, mine, rfl, rfl⟩

/-- So an exchange begins soundly. -/
theorem sound (owned : h.Owned w) : (h.exchange w).Sound w where
  apart _ stdin t _ there := by
    obtain ⟨writer, mine, -⟩ := owned.outflow stdin
    obtain ⟨reader, -, yours, -⟩ := owned.inflow there
    have apart := owned.apart _ writer t _ reader
    rw [mine.pipeOf?, yours.pipeOf?] at apart
    exact fun same => apart (congrArg some same)
  distinct t u i j first second same := by
    obtain ⟨reader, -, mine, -⟩ := owned.inflow first
    obtain ⟨reader', -, yours, -⟩ := owned.inflow second
    exact owned.distinct t u _ _ reader reader' (by rw [mine.pipeOf?, yours.pipeOf?, same])
  outflow o stdin := by
    obtain ⟨-, mine, fresh, written⟩ := owned.outflow stdin
    refine ⟨mine.known, mine.exclusive, ⟨[], fun _ => rfl, ?_⟩, fun isClosed => ?_⟩
    · simp [fresh.left, fresh.fed, written, exchange]
    · exact nomatch fresh.isOpen.symm.trans isClosed
  inflow t _ there := by
    obtain ⟨-, -, mine, early, taken⟩ := owned.inflow there
    refine ⟨mine.known, mine.exclusive, ?_⟩
    simp [early, taken, exchange]
  fresh _ o stdin := (owned.outflow stdin).2.2.1

theorem advanced (owned : h.Owned w) (input : Option Input) : (h.exchange w).Advanced (h.call input) where
  fed before := absurd rfl before
  read past := past.elim
  drained _ there isClosed := nomatch (owned.inflow there).2.1.symm.trans isClosed
  fedAll past := past.elim
  drainedAll past := past.elim
  reaped _ member := .inl member

/-- What the exchange knows of an output's end, when its caller has taken nothing from it. -/
theorem ready (owned : h.Owned w) (keeps : w.Keeps w') (t : Stream) (i : Inflow)
    (there : ((h.exchange w).inflow t).map Inflow.begin = some i) : i.Ready w' := by
  obtain ⟨j, before, rfl⟩ := Option.map_eq_some_iff.mp there
  obtain ⟨-, isOpen, mine, -⟩ := owned.inflow before
  exact Inflow.Ready.keeps ⟨isOpen, mine.pipeOf?, rfl⟩ keeps.pipeOf?

end Owned

/-- When a call begins, the exchange has the ends of the handle. -/
theorem reader?_begin (h : Handle) (w : World) (t : Stream) :
    h.reader? t = (((h.exchange w).inflow t).map Inflow.begin).map Inflow.reader := by
  simp [exchange, Inflow.begin, Function.comp_def]

theorem early_begin (h : Handle) (w : World) (t : Stream) :
    (((h.exchange w).inflow t).map Inflow.begin).map Inflow.early = (h.reader? t).map fun _ => [] := by
  simp [exchange, Inflow.begin, Function.comp_def]

end Handle

/-- What a call has come to, as the exchange shows it: what was written, that nothing was read before the
call, and what the call answers. -/
structure Exchange.Returns (s : Exchange) (h : Handle) (written : Bytes) (output : Option Bytes)
    (h' : Handle) (w' : World) : Prop where
  stage : s.stage = .returned
  world : s.world = w'
  written : s.outflow.map Outflow.written = h.stdin.map fun r => r.held ++ written
  early : ∀ t, (s.inflow t).map Inflow.early = (h.reader? t).map fun _ => []
  output : output = (s.inflow .stdout).map Inflow.taken
  errors : h'.stderrOutput = (s.inflow .stderr).map Inflow.taken

namespace Handle

namespace Owned

open Exchange

variable {limit : Limit} {output : Option Bytes}

/-- A call without an input that returns normally is a run of the exchange. -/
private theorem communicates_none (owned : h.Owned w)
    (ran : (communicate none limit).exec h w = (.ok output, h', w')) :
    ∃ s, Run (h.call none) (h.exchange w) s ∧ s.Returns h [] output h' w' := by
  have start : Reaches (h.call none) (h.exchange w) w .before (h.exchange w).outflow
      (h.exchange w).inflow := ⟨.refl w, [], .refl⟩
  rw [communicate_eq] at ran
  dsimp only at ran
  obtain ⟨undelivered, w₁, out, closed, memory, written, fed, reading⟩ := start.closes (h := h) rfl rfl
    (by simp [exchange, Function.comp_def]) (fun o stdin => (owned.outflow stdin).2.2.1)
    fun o stdin => (owned.outflow stdin).2.1.leads
  rw [Owning.exec_bind, closed] at ran
  dsimp only at ran
  rw [Owning.exec_bind, Owning.exec_pure] at ran
  dsimp only at ran
  obtain ⟨errors, w₂, took, -, taken, drainer⟩ := Drainer.take
    (h := h.without .stdin) reading (fun t => ((h.exchange w).inflow t).map Inflow.begin)
    (owned.ready reading.1 .stderr) (h.reader?_begin w .stderr) rfl
  rw [Owning.exec_bind, took] at ran
  dsimp only at ran
  obtain ⟨w₃, started, begun, drainer⟩ := drainer.start taken
  rw [Owning.exec_bind, exec_onPumps, List.nil_append, started] at ran
  dsimp only at ran
  obtain ⟨_, w₄, success, ran⟩ := Owning.lift_bind_ok ran
  cases success
  obtain ⟨inn, ⟨-, entries, run⟩, early, stdout, stderr⟩ :=
    begun.collects (h := (h.without .stdin).without .stderr) [] owned.sound
      (owned.advanced none) (List.forall_mem_nil _) (fun _ => fed) (owned.ready begun.1 .stdout)
      (h.reader?_begin w .stdout) drainer owned.noErrors rfl rfl owned.processes owned.pumps ran
  refine ⟨_, run, rfl, rfl, ?_, fun t => (early t).trans (h.early_begin w t), stdout, stderr⟩
  simpa [exchange, Function.comp_def] using written

/-- A call with an input that returns normally is a run of the exchange. -/
private theorem communicates_some (owned : h.Owned w) {input : Input}
    (ran : (communicate (some input.toBuffer) limit).exec h w = (.ok output, h', w')) :
    ∃ s, Run (h.call (some input)) (h.exchange w) s ∧ s.Returns h [] output h' w' := by
  rw [communicate_eq] at ran
  dsimp only at ran
  cases stdin : h.stdin with
  | none =>
    have failed : (takeFeed input.toBuffer).exec h w = (.error (.misuse (.noEndpoint .stdin)), h, w) := by
      simp only [takeFeed, Owning.exec_bind, Owning.exec_own, stdin, Owning.exec_throw]
    rw [Owning.exec_bind, failed] at ran
    cases ran
  | some r =>
    have start : Reaches (h.call (some input)) (h.exchange w) w .before (h.exchange w).outflow
        (h.exchange w).inflow := ⟨.refl w, [], .refl⟩
    obtain ⟨o, out⟩ : ∃ o, (h.exchange w).outflow = some o := by
      rw [exchange, stdin]
      exact ⟨_, rfl⟩
    obtain ⟨isWriter, mine, fresh, written⟩ := owned.outflow out
    obtain ⟨p, isPump⟩ : ∃ p, p = Pump.make .feed (.writer o.writer) input.toBuffer "communicate-stdin"
        h.logger { chunkSize := h.settings.chunkSize
                   ignoresBrokenPipe := h.settings.ignoresBrokenPipe } := ⟨_, rfl⟩
    have took : (takeFeed input.toBuffer).exec h w = (.ok p, h.without .stdin, w) := by
      simp only [takeFeed, Owning.exec_bind, Owning.exec_own, isWriter, Owning.exec_change,
        Owning.exec_pure, isPump]
      rfl
    rw [out] at start
    rw [Owning.exec_bind, took] at ran
    dsimp only at ran
    rw [Owning.exec_bind, Owning.exec_pure] at ran
    dsimp only at ran
    obtain ⟨errors, w₁, took, descriptors, taken, drainer⟩ := Drainer.take
      (h := h.without .stdin) start (fun t => ((h.exchange w).inflow t).map Inflow.begin)
      (owned.ready start.1 .stderr) (h.reader?_begin w .stderr) rfl
    rw [Owning.exec_bind, took] at ran
    dsimp only at ran
    have leads : w₁.channel? o.writer.descriptor = some (.writeEnd o.pipe) := by
      rw [World.channel?, descriptors]
      exact mine.leads
    obtain ⟨p', w₂, o', fed, finished, same, done, memory, reading⟩ :=
      taken.feeds fresh leads rfl "communicate-stdin" h.logger isPump
    have drainer : Drainer (h.call (some input)) w₂
        (fun t => ((h.exchange w).inflow t).map Inflow.begin) errors :=
      drainer.keeps (fun d => (reading.1.pipeOf? d).trans (taken.1.pipeOf? d).symm) memory rfl
    obtain ⟨w₃, started, begun, drainer⟩ := drainer.start reading
    rw [Owning.exec_bind, exec_onPumps, List.singleton_append, run_onPumps_cons, fed] at ran
    dsimp only at ran
    rw [started] at ran
    dsimp only at ran
    obtain ⟨_, w₄, success, ran⟩ := Owning.lift_bind_ok ran
    cases success
    have quiet : firstError? [p'] = none → p'.error = none := by
      cases failed : p'.error <;> simp [firstError?, failed]
    obtain ⟨inn, ⟨-, entries, run⟩, early, stdout, stderr⟩ :=
      begun.collects (h := (h.without .stdin).without .stderr) [p'] owned.sound
        (owned.advanced _) (by simpa using finished)
        (fun noError _ _ member => Option.some.inj member ▸ done (quiet noError))
        (owned.ready begun.1 .stdout) (h.reader?_begin w .stdout) drainer owned.noErrors rfl rfl
        owned.processes owned.pumps ran
    refine ⟨_, run, rfl, rfl, ?_, fun t => (early t).trans (h.early_begin w t), stdout, stderr⟩
    rw [Option.map_some, same, written, isWriter, Option.map_some, List.append_nil]

end Owned

/-! ## Writing before the call -/

/-- Several writes to the caller's end of stdin, one after another. -/
def writeAll : List Bytes → Owning Handle Unit
  | [] => return
  | data :: rest => do
    let _ ← write data
    writeAll rest

/-- A handle whose end of stdin holds back something more. -/
def hold (h : Handle) (data : Bytes) : Handle :=
  { h with stdin := h.stdin.map fun r => { r with held := r.held ++ data } }

@[simp] theorem reader?_hold (h : Handle) (data : Bytes) : (h.hold data).reader? = h.reader? := by
  funext t
  cases t <;> rfl

theorem hold_nil (h : Handle) : h.hold [] = h := by
  obtain ⟨_, _, _, stdin, _, _, _, _, _⟩ := h
  cases stdin <;> simp [hold]

theorem hold_hold (h : Handle) (data more : Bytes) : (h.hold data).hold more = h.hold (data ++ more) := by
  simp [hold, Function.comp_def]

theorem owns_hold {data : Bytes} {pipe : Nat} :
    ((h.hold data).exchange w).Owns pipe ↔ (h.exchange w).Owns pipe := by
  simp only [Exchange.Owns, exchange, reader?_hold]
  simp [hold]

/-- A write holds back what is written, and is a step of the exchange. -/
theorem write_ok {data : Bytes} {count : Nat} (writer : ∀ r, h.stdin = some r → r.closed = false)
    (input : Option Input) (ran : (write data).exec h w = (.ok count, h', w')) :
    h' = h.hold data ∧ w' = w ∧ Exchange.Step (h.call input) (h.exchange w) ((h.hold data).exchange w) := by
  unfold write at ran
  rw [Owning.exec_bind, Owning.exec_own] at ran
  dsimp only at ran
  cases stdin : h.stdin with
  | none =>
    rw [stdin] at ran
    cases ran
  | some r =>
    rw [stdin] at ran
    dsimp only at ran
    rw [Owning.exec_bind, Owning.exec_liftRunOn, Writer.exec_write (writer r stdin)] at ran
    cases ran
    refine ⟨by rw [hold, stdin]; rfl, rfl, ?_⟩
    have wrote := Exchange.Step.write (c := h.call input) (s := h.exchange w) rfl
      (by rw [exchange, stdin]; rfl) data
    have after : (h.hold data).exchange w = { h.exchange w with
        outflow := some (Outflow.write
          { writer := r, pipe := (w.pipeOf? r.descriptor).getD 0, written := r.held } data) } := by
      simp only [exchange, reader?_hold]
      rw [hold, stdin]
      rfl
    rw [after]
    exact wrote

/-- A handle owns the same when it holds back something more. -/
theorem Owned.hold (owned : h.Owned w) (data : Bytes) : (h.hold data).Owned w where
  writer r' there := by
    obtain ⟨r, before, rfl⟩ := Option.map_eq_some_iff.mp there
    exact owned.writer r before
  reader := by
    rw [reader?_hold]
    exact owned.reader
  apart r' there := by
    obtain ⟨r, before, rfl⟩ := Option.map_eq_some_iff.mp there
    rw [reader?_hold]
    exact owned.apart r before
  distinct := by
    rw [reader?_hold]
    exact owned.distinct
  processes := owned.processes
  pumps p member running := by
    obtain ⟨isDrain, r, ends, apart⟩ := owned.pumps p member running
    exact ⟨isDrain, r, ends, fun pipe leads owns => apart pipe leads (owns_hold.mp owns)⟩
  noErrors := owned.noErrors

/-- Several writes hold back all of what is written, and are a run of the exchange. -/
theorem Owned.writeAll (owned : h.Owned w) {writes : List Bytes} (input : Option Input)
    (ran : (writeAll writes).exec h w = (.ok (), h', w')) :
    h' = h.hold writes.flatten ∧ w' = w ∧ h'.Owned w ∧
      Exchange.Run (h.call input) (h.exchange w) (h'.exchange w) := by
  induction writes generalizing h with
  | nil =>
    cases ran
    exact ⟨h.hold_nil.symm, rfl, owned, .refl⟩
  | cons data rest ih =>
    unfold Handle.writeAll at ran
    obtain ⟨count, h₁, w₁, wrote, later⟩ := Owning.bind_ok ran
    obtain ⟨rfl, rfl, step⟩ := write_ok (fun r stdin => (owned.writer r stdin).1) input wrote
    obtain ⟨rfl, rfl, owned', run⟩ := ih (owned.hold data) later
    rw [hold_hold] at owned' run ⊢
    exact ⟨rfl, rfl, owned', .head step run⟩

/-- A call that returns normally has come to the end of a run, also after some writes. -/
theorem Owned.communicates (owned : h.Owned w) {writes : List Bytes} {input : Option Input}
    {limit : Limit} {output : Option Bytes}
    (ran : (do Handle.writeAll writes; communicate (input.map Input.toBuffer) limit).exec h w
      = (.ok output, h', w')) :
    ∃ s, Exchange.Run (h.call input) (h.exchange w) s ∧
      s.Returns h writes.flatten output h' w' := by
  obtain ⟨_, h₁, w₁, wrote, called⟩ := Owning.bind_ok ran
  obtain ⟨rfl, rfl, owned', earlier⟩ := owned.writeAll input wrote
  obtain ⟨s, later, returns⟩ : ∃ s, Exchange.Run (h.call input) ((h.hold writes.flatten).exchange w₁) s ∧
      s.Returns (h.hold writes.flatten) [] output h' w' := by
    cases input with
    | none => exact owned'.communicates_none called
    | some input => exact owned'.communicates_some called
  refine ⟨s, earlier.trans later, { returns with written := ?_, early := ?_ }⟩
  · rw [returns.written]
    simp [Handle.hold, Function.comp_def]
  · rw [← reader?_hold h writes.flatten]
    exact returns.early

end Handle

end Pipework
