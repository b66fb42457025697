import Pipework.Proofs.Exchange.Calling
import Pipework.Proofs.Vigil.Soundness
import Pipework.Proofs.Vigil.Threads

/-!
# A wait is a run

What the program does while it waits is a run of the vigil: the processes act, something happens elsewhere, or a
thread goes on (`Vigil.Reaches`). So the program's waiting for a drain is one (`Vigil.Reaches.setting`).

The program's own wait closes the caller's end of stdin, waits for each process and then for each pump, and
raises what is to be told of. If it returns normally, its vigil has come to the last stage
(`Handle.Attends.waits`).
-/

namespace Pipework

namespace Vigil

variable {v₀ : Vigil} {w₀ w w' : World} {stage stage' : Stage} {limited limited' : Bool}
  {strands strands' before after : List Strand} {t t' : Strand} {i : Inflow}

/-! ## States that are reached -/

/-- A run to a state, whatever was put where on the way, that keeps what the caller relies on. What is drained into
is left to the threads. -/
def Reaches (v₀ : Vigil) (w : World) (stage : Stage) (limited : Bool) (strands : List Strand) : Prop :=
  v₀.world.Keeps w ∧ ∃ late entries puts,
    GuardedRun v₀ { world := w, pids := v₀.pids, strands, stage, limited, late, entries, puts }

namespace Reaches

theorem refl (v₀ : Vigil) : Reaches v₀ v₀.world v₀.stage v₀.limited v₀.strands :=
  ⟨.refl _, v₀.late, v₀.entries, v₀.puts, .refl⟩

/-- One more step, by which only a thread changes the memory. -/
theorem tail (reaches : Reaches v₀ w stage limited strands) (keeps : w.Keeps w')
    (step : ∀ late entries puts, ∃ late' entries' puts',
      Step { world := w, pids := v₀.pids, strands, stage, limited, late, entries, puts }
        { world := w', pids := v₀.pids, strands := strands', stage := stage', limited := limited'
          late := late', entries := entries', puts := puts' })
    (memory : strands' = strands → w'.memory = w.memory := by exact fun _ => rfl) :
    Reaches v₀ w' stage' limited' strands' := by
  obtain ⟨kept, late, entries, puts, run⟩ := reaches
  obtain ⟨late', entries', puts', step⟩ := step late entries puts
  exact ⟨kept.trans keeps, late', entries', puts', run.tail ⟨step, fun same _ _ => by rw [memory same]⟩⟩

/-- The processes act. -/
theorem plays {entries : List (Nat × Bytes)} (reaches : Reaches v₀ w stage limited strands)
    (plays : w.Plays w' entries) : Reaches v₀ w' stage limited strands := by
  induction plays with
  | refl => exact reaches
  | tail _ acts ih =>
    obtain ⟨_, passes, -⟩ := acts.runs
    exact ih.tail passes.keeps (fun late _ puts => ⟨late, _, puts, .acts acts⟩) fun _ => acts.memory

/-- Something happens that has nothing to do with the drains. -/
theorem elsewhere (reaches : Reaches v₀ w stage limited strands) (keeps : w.Keeps w')
    (apart : World.Elsewhere v₀.Owns w w') (memory : w'.memory = w.memory) :
    Reaches v₀ w' stage limited strands := by
  obtain ⟨kept, late, entries, puts, run⟩ := reaches
  refine ⟨kept.trans keeps, late, entries, puts,
    run.tail ⟨.elsewhere ?_ fun _ _ => by rw [memory], fun _ _ _ => by rw [memory]⟩⟩
  rw [run.run.sameEnds.owns]
  exact apart

/-- Something happens that does not even touch pipes, descriptors and processes. -/
theorem aside (reaches : Reaches v₀ w stage limited strands) (pipes : w'.pipes = w.pipes)
    (descriptors : w'.descriptors = w.descriptors) (retired : w'.retired = w.retired)
    (processes : w'.processes = w.processes) (memory : w'.memory = w.memory) :
    Reaches v₀ w' stage limited strands :=
  reaches.elsewhere (World.keeps_of_same descriptors retired processes)
    { processes
      content := fun _ _ => by rw [World.content, pipes]; rfl
      length := Nat.le_of_eq (by rw [pipes])
      descriptors := fun _ _ _ member _ => descriptors ▸ member } memory

theorem emit (reaches : Reaches v₀ w stage limited strands) (e : Event) :
    Reaches v₀ (w.emit e) stage limited strands := reaches.aside rfl rfl rfl rfl rfl

/-- A thread does something. -/
theorem thread {puts : List Put} (reaches : Reaches v₀ w stage limited (before ++ t :: after))
    (keeps : w.Keeps w') (step : t.Step w w' t' puts) :
    Reaches v₀ w' stage limited (before ++ t' :: after) := by
  refine reaches.tail keeps (fun late entries more => ⟨late, entries, more ++ puts, ?_⟩) fun same =>
    absurd (congrArg Strand.task (List.head_eq_of_cons_eq (List.append_cancel_left same))) step.task_ne
  have there : (before ++ t :: after)[before.length]? = some t := by simp
  simpa using Step.thread
    (v := { world := w, pids := v₀.pids, strands := before ++ t :: after, stage, limited, late, entries
            puts := more })
    there step

end Reaches

/-! ## Draining -/

/-- One of the threads goes on, with the others and the caller around it. -/
theorem Reaches.setting (sound : v₀.Sound w₀) (advanced : v₀.Advanced) :
    Strand.Setting fun w t => Reaches v₀ w stage limited (before ++ t :: after) where
  plays plays reaches := reaches.plays plays
  rests keeps apart memory reaches := reaches.elsewhere keeps
    { apart with
      content := fun pipe _ => apart.content pipe trivial
      descriptors := fun pipe _ => apart.descriptors pipe trivial } memory
  thread keeps step reaches := reaches.thread keeps step
  inflow {w p i} reaches := by
    obtain ⟨-, late, entries, puts, run⟩ := reaches
    have mine := (run.run.sound sound advanced).1.strand before.length ⟨p, .reading, some i⟩ i (by simp) rfl
    exact ⟨w₀, entries, mine.inflow⟩

end Vigil

/-! ## The whole wait -/

open World (Elsewhere Gains Keeps)

/-- Delivering to a channel is nothing to the pipes that it is no end of. -/
theorem World.content_deliver?_other {w w' : World} {c : Channel} {data : Bytes} {pipe : Nat}
    (delivered : w.deliver? c data = some w') (other : c ≠ .writeEnd pipe) :
    w'.content pipe = w.content pipe := by
  by_cases known : pipe < w.pipes.length
  · have gains : Gains pipe _ w w' := gains_deliver? delivered
    rw [gains.content known, Channel.enteredInto_entries other, List.append_nil]
  · have unknown : ¬ pipe < w'.pipes.length := (passes_deliver? delivered).pipes ▸ known
    simp [content, known, unknown]

/-- A pump as a start leaves it: it has finished, or it drains a pipe and its thread has not run yet. -/
def Pump.Ready (p : Pump) (w : World) : Prop :=
  p.thread = .finished ∧ readerOf p.pipeEnd = none ∨
    p.thread = .running ∧ p.direction = .drain ∧ ∃ r pipe, readerOf p.pipeEnd = some r ∧
      r.closed = false ∧ w.pipeOf? r.descriptor = some pipe

/-- What a handle has after a start, for its vigil: the drains have pipes of their own, and the caller's writer
is on none of them. -/
structure Handle.Attends (h : Handle) (w : World) : Prop where
  ready : ∀ p ∈ h.pumps, p.Ready w
  sound : (h.vigil w).Sound w
  writer : ∀ r pipe, h.stdin = some r → w.pipeOf? r.descriptor = some pipe → ¬ (h.vigil w).Owns pipe
  processes : ∀ pid ∈ h.pids, (w.exit? pid).isSome

/-- Before the first wait nothing has been waited for. -/
theorem Handle.vigil_advanced (h : Handle) (w : World) : (h.vigil w).Advanced where
  reaped _ member := .inl member
  finished _ _ past := nomatch past
  quiet := nofun
  unlimited _ := rfl

namespace Vigil

variable {v₀ : Vigil} {w₀ w w' : World} {stage : Stage} {limited : Bool} {strands before after : List Strand}
  {p p' : Pump} {deadline : Option Time}

namespace Reaches

/-! ## Closing stdin -/

/-- The caller's writer passes on what it holds, into a pipe that no pump drains, and gives up its descriptor. -/
theorem closeWriter {r : Writer} (reaches : Reaches v₀ w stage limited strands)
    (foreign : ∀ pipe, v₀.world.pipeOf? r.descriptor = some pipe → ¬ v₀.Owns pipe) :
    Reaches v₀ (Writer.close.exec r w).2.2 stage limited strands := by
  have shut (d : Nat) : (Sim.close d).Preserves fun w => Reaches v₀ w stage limited strands := by
    intro w there
    by_cases isOpen : d ∈ w.descriptors.map (·.1)
    · rw [Sim.exec_close isOpen]
      exact there.elsewhere (World.keeps_shut d)
        ⟨rfl, fun _ _ => rfl, Nat.le_refl _, fun _ _ _ member _ => (List.mem_filter.mp member).1⟩ rfl
    · rwa [Sim.exec_close_of_not_open isOpen]
  have passed : Reaches v₀ (Writer.passOn.exec r w).2.2 stage limited strands := by
    by_cases holds : r.held = []
    · rwa [Writer.passOn_of_empty holds]
    · obtain ⟨_, plays⟩ := World.settle_plays w
      have settled := reaches.plays plays
      rw [Writer.passOn_of_held holds]
      cases delivered : w.settle.deliver? ((w.settle.channel? r.descriptor).getD .null) r.held with
      | none => exact settled
      | some after =>
        have gains : Gains 0 _ w.settle after := World.gains_deliver? delivered
        refine settled.elsewhere (World.passes_deliver? delivered).keeps
          { processes := (World.same_of_deliver? delivered).1
            content := fun pipe owns => ?_
            length := gains.pipes
            descriptors := fun _ _ _ member _ => (World.passes_deliver? delivered).descriptors ▸ member }
          (World.same_of_deliver? delivered).2
        refine World.content_deliver?_other delivered fun isEnd => foreign pipe ?_ owns
        cases leads : w.settle.channel? r.descriptor with
        | none =>
          rw [leads] at isEnd
          cases isEnd
        | some c =>
          rw [leads, Option.getD_some] at isEnd
          rw [← settled.1.pipeOf?, World.pipeOf?_of_channel? leads, isEnd]
          rfl
  unfold Writer.close
  rw [Owning.exec_bind, Owning.exec_own]
  dsimp only
  split
  · exact reaches
  · rw [Owning.exec_bind, Owning.exec_attempt]
    have rest : (do
        Sim.close r.descriptor
        Owning.change fun s => { s with held := [], closed := true }
        Sim.ofExcept (Writer.passOn.exec r w).1 : Owning Writer Unit).Preserves
          fun _ w => Reaches v₀ w stage limited strands :=
      .bind (.lift fun _ => shut _) fun _ => .bind (.change fun _ _ => id) fun _ => .lift fun _ => .ofExcept _
    exact rest _ _ passed

/-! ## Processes -/

/-- The next process is waited for. -/
theorem wait {pid : Nat} {rest : List Nat} {limit : Option Time}
    (reaches : Reaches v₀ w (.awaiting (pid :: rest)) limited strands) (known : (v₀.world.exit? pid).isSome)
    (ran : (Sim.wait pid limit).exec w = (.ok (), w')) : Reaches v₀ w' (.awaiting rest) limited strands := by
  obtain ⟨w₁, entries, plays, ended, rfl⟩ := Sim.wait_ok ran
  have there : Reaches v₀ w₁ (.awaiting (pid :: rest)) limited strands :=
    (reaches.emit (.waited pid limit)).plays plays
  obtain ⟨code, found⟩ := Option.isSome_iff_exists.mp (there.1.known pid known)
  cases code with
  | none => exact nomatch (World.not_hasEnded_of_exit? found).symm.trans ended
  | some code =>
    exact there.tail (World.notice_passes w₁ pid).keeps fun late entries puts =>
      ⟨late, entries, puts, .reaped rfl found⟩

theorem waitAll {pids : List Nat} (reaches : Reaches v₀ w (.awaiting pids) limited strands)
    (known : ∀ pid ∈ pids, (v₀.world.exit? pid).isSome)
    (ran : (Handle.waitAll deadline pids).exec w = (.ok (), w')) :
    Reaches v₀ w' (.joining 0) limited strands := by
  induction pids generalizing w with
  | nil =>
    cases ran
    exact reaches.tail (.refl _) fun late entries puts => ⟨late, entries, puts, .turns rfl⟩
  | cons pid rest ih =>
    unfold Handle.waitAll at ran
    rw [Sim.exec_bind, Handle.exec_remaining] at ran
    obtain ⟨_, w₁, waited, ran⟩ := Sim.bind_ok ran
    exact ih (reaches.wait (known pid List.mem_cons_self) waited)
      (fun other member => known other (List.mem_cons_of_mem _ member)) ran

/-! ## Pumps -/

/-- A pump that has finished has been waited for. -/
private theorem joined {t : Strand} {outcome : Except Failure Unit}
    (reaches : Reaches v₀ w (.joining before.length) limited (before ++ t :: after))
    (finished : t.task = .done outcome) :
    Reaches v₀ w (.joining (before.length + 1)) limited (before ++ t :: after) :=
  reaches.tail (.refl w) fun late entries puts => ⟨late, entries, puts, .joined rfl (by simp) finished⟩

/-- One pump is waited for: afterwards it has finished, or its time is over. -/
theorem join {limit : Option Time}
    (reaches : Reaches v₀ w (.joining before.length) limited (before ++ p.strand v₀.world :: after))
    (sound : v₀.Sound w₀) (advanced : v₀.Advanced) (ready : p.Ready v₀.world)
    (hurried : limited = limit.isSome) (ran : (Pump.join limit).exec p w = (.ok (), p', w')) :
    ∃ t, t.pump.error = p'.error ∧
      Reaches v₀ w' (.joining (before.length + 1)) limited (before ++ t :: after) := by
  rcases ready with ⟨finished, noReader⟩ | ⟨running, isDrain, r, pipe, ends, isOpen, leads⟩
  · unfold Pump.join at ran
    rw [Owning.exec_bind, Owning.exec_own] at ran
    dsimp only at ran
    rw [finished, Owning.exec_lift, Sim.exec_emit] at ran
    cases ran
    have fed := (reaches.emit (.joined p.threadName limit)).thread (.refl _)
      (.feeds (by simp [Pump.strand, noReader]) (.ok ()) p.moved)
    refine ⟨_, ?_, fed.joined rfl⟩
    simp [Pump.strand, noReader, Pump.verdict]
  · have strand : p.strand v₀.world
        = ⟨{ p with pipeEnd := .gone }, .reading, some { reader := r, pipe }⟩ := by
      simp [Pump.strand, ends, leads]
    rw [strand] at reaches
    rcases (setting sound advanced).join reaches running isDrain ends isOpen
      ((reaches.1.pipeOf? _).trans leads) ran with ⟨_, _, i', -, done⟩ | ⟨rfl, limited', there⟩
    · exact ⟨_, rfl, done.joined rfl⟩
    · exact ⟨_, rfl, there.tail (.refl _) fun late entries puts =>
        ⟨_, entries, puts, .passes rfl (by simp) (hurried.trans limited')⟩⟩

/-- All pumps are waited for, one after another. -/
theorem joinAll {pumps pumps' : List Pump}
    (reaches : Reaches v₀ w (.joining before.length) limited (before ++ pumps.map (·.strand v₀.world)))
    (sound : v₀.Sound w₀) (advanced : v₀.Advanced) (ready : ∀ p ∈ pumps, p.Ready v₀.world)
    (hurried : limited = deadline.isSome)
    (ran : Id.run ((Handle.onPumps (Handle.joinBy deadline) pumps).run w) = ((.ok (), pumps'), w')) :
    ∃ joined, joined.map (fun t : Strand => t.pump.error) = pumps'.map (·.error) ∧
      Reaches v₀ w' (.joining (before ++ joined).length) limited (before ++ joined) := by
  induction pumps generalizing w before pumps' with
  | nil =>
    cases ran
    exact ⟨[], rfl, by simpa using reaches⟩
  | cons p rest ih =>
    rw [Handle.run_onPumps_cons] at ran
    generalize first : (Handle.joinBy deadline).exec p w = result at ran
    obtain ⟨outcome, p', w₁⟩ := result
    cases outcome with
    | error e => cases ran
    | ok _ =>
      rw [Handle.joinBy, Owning.exec_bind, Owning.exec_lift, Handle.exec_remaining] at first
      obtain ⟨t, same, there⟩ := reaches.join sound advanced (ready p List.mem_cons_self)
        (by rw [hurried, Option.isSome_map]) first
      dsimp only at ran
      generalize others : Id.run ((Handle.onPumps (Handle.joinBy deadline) rest).run w₁) = result at ran
      obtain ⟨⟨outcome, rest'⟩, w₂⟩ := result
      cases ran
      have shifted : before ++ t :: rest.map (·.strand v₀.world)
          = (before ++ [t]) ++ rest.map (·.strand v₀.world) := by simp
      have longer : before.length + 1 = (before ++ [t]).length := by simp
      rw [shifted, longer] at there
      obtain ⟨joined, errors, reached⟩ := ih there (fun q member => ready q (List.mem_cons_of_mem _ member)) others
      refine ⟨t :: joined, ?_, by simpa using reached⟩
      rw [List.map_cons, List.map_cons, same, errors]

end Reaches

/-- A wait that returns normally has come to the end of its vigil. -/
structure Returns (v : Vigil) (h : Handle) (limit : Option Time) (statuses : List ProcessStatus) (w : World) :
    Prop where
  stage : v.stage = .returned
  world : v.world = w
  limited : v.limited = limit.isSome
  statuses : statuses = h.statusesIn w

end Vigil

namespace Handle

open Vigil

variable {h h' : Handle} {w w' : World}

/-- Besides dropping the end, closing it only writes to the log. -/
theorem closeEndpoint_world (s : Stream) (h : Handle) (w : World) :
    ∃ log, ((closeEndpoint s).exec h w).2.2 = { ((dropEndpoint s).exec h w).2.2 with log } := by
  unfold closeEndpoint
  rw [Owning.exec_bind, Owning.exec_attempt]
  generalize (dropEndpoint s).exec h w = dropped
  obtain ⟨outcome, h', w'⟩ := dropped
  cases outcome with
  | ok _ => exact ⟨_, rfl⟩
  | error e =>
    dsimp only
    split
    · exact ⟨_, rfl⟩
    · rw [Owning.exec_bind, Owning.exec_own]
      dsimp only
      split <;> exact ⟨_, rfl⟩

/-- Closing the caller's end of stdin is nothing to the drains. -/
theorem Attends.closeStdin (attends : h.Attends w) :
    ((closeEndpoint .stdin).exec h w).2.1 = h.without .stdin ∧
      Reaches (h.vigil w) ((closeEndpoint .stdin).exec h w).2.2 .before false (h.vigil w).strands := by
  refine ⟨(closeEndpoint_handle .stdin h w).trans (dropEndpoint_handle .stdin h w), ?_⟩
  have start := Reaches.refl (h.vigil w)
  have dropped : Reaches (h.vigil w) ((dropEndpoint .stdin).exec h w).2.2 .before false
      (h.vigil w).strands := by
    unfold dropEndpoint
    rw [Owning.exec_bind, Owning.exec_own]
    dsimp only
    rw [Owning.exec_bind, Owning.exec_change]
    dsimp only
    cases stdin : h.stdin with
    | none => exact start
    | some r =>
      have closed := start.closeWriter fun pipe leads => attends.writer r pipe stdin leads
      dsimp only
      rw [Owning.exec_bind, Owning.exec_liftRunOn]
      exact closed
  obtain ⟨log, closed⟩ := closeEndpoint_world .stdin h w
  rw [closed]
  exact dropped.aside rfl rfl rfl rfl rfl

variable {span : Option Time} {statuses : List ProcessStatus}

/-- A wait that returns normally is a run of the vigil, and leaves what is drained into to the threads. -/
theorem Attends.waits_guarded (attends : h.Attends w)
    (ran : (Handle.wait (.ok span)).exec h w = (.ok statuses, h', w')) :
    ∃ v, GuardedRun (h.vigil w) v ∧ v.Returns h span statuses w' := by
  unfold Handle.wait at ran
  obtain ⟨undelivered, h₁, w₁, closed, ran⟩ := Owning.bind_ok ran
  obtain ⟨without, before⟩ := attends.closeStdin
  rw [closed] at without before
  dsimp only at without before
  subst without
  obtain ⟨deadline, w₂, timed, ran⟩ := Owning.lift_bind_ok ran
  cases timed
  rw [Owning.exec_bind, Owning.exec_own] at ran
  dsimp only at ran
  obtain ⟨_, w₂, waited, ran⟩ := Owning.lift_bind_ok ran
  have called : Reaches (h.vigil w) w₁ (.awaiting h.pids) span.isSome (h.vigil w).strands :=
    before.tail (.refl _) fun late entries puts => ⟨[], entries, puts, .calls (by trivial) _⟩
  have turned := called.waitAll attends.processes waited
  obtain ⟨_, h₂, w₃, joined, ran⟩ := Owning.bind_ok ran
  rw [exec_eachPump] at joined
  generalize pumped : Id.run ((onPumps (joinBy (span.map (w₁.clock + ·)))
    (h.without .stdin).pumps).run w₂) = result at joined
  obtain ⟨⟨outcome, pumps⟩, w₄⟩ := result
  cases joined
  have first : Reaches (h.vigil w) w₂ (.joining ([] : List Strand).length) span.isSome
      ([] ++ h.pumps.map (·.strand w)) := turned
  obtain ⟨strands, errors, there⟩ := first.joinAll attends.sound
    (h.vigil_advanced w) attends.ready (by rw [Option.isSome_map]) pumped
  obtain ⟨_, w₅, raised, ran⟩ := Owning.lift_bind_ok ran
  obtain ⟨-, rfl⟩ := raise?_ok raised
  rw [Owning.exec_bind, Owning.exec_own] at ran
  dsimp only at ran
  obtain ⟨_, w₆, raised, answered⟩ := Owning.lift_bind_ok ran
  obtain ⟨quiet, same⟩ := raise?_ok raised
  rw [same] at answered
  cases answered
  have quiet : ∀ t ∈ strands, t.pump.error = none := by
    intro t member
    have known : t.pump.error ∈ pumps.map (·.error) := errors ▸ List.mem_map_of_mem member
    obtain ⟨p, isPump, same⟩ := List.mem_map.mp known
    rw [← same]
    exact List.findSome?_eq_none_iff.mp quiet p isPump
  obtain ⟨-, late, entries, puts, run⟩ := there
  exact ⟨_, run.tail ⟨.returns rfl quiet, fun _ _ _ => rfl⟩, rfl, rfl, rfl, rfl⟩

/-- A wait that returns normally is a run of the vigil. -/
theorem Attends.waits (attends : h.Attends w)
    (ran : (Handle.wait (.ok span)).exec h w = (.ok statuses, h', w')) :
    ∃ v, Run (h.vigil w) v ∧ v.Returns h span statuses w' := by
  obtain ⟨v, run, returns⟩ := attends.waits_guarded ran
  exact ⟨v, run.run, returns⟩

/-- What is held back for stdin is nothing to the pumps. -/
theorem Attends.hold (attends : h.Attends w) (data : Bytes) : (h.hold data).Attends w where
  ready := attends.ready
  sound := attends.sound
  writer r' pipe there := by
    obtain ⟨r, before, rfl⟩ := Option.map_eq_some_iff.mp there
    exact attends.writer r pipe before
  processes := attends.processes

end Handle

end Pipework
