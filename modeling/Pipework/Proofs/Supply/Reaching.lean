import Mathlib.Data.List.Pairwise
import Pipework.Proofs.Custody.Ends
import Pipework.Proofs.Exchange.Feeding
import Pipework.Proofs.Supply.Steps
import Pipework.Proofs.Wiring.Holders

/-!
# The program's feeding is a run

The program runs the thread of a pump that feeds in one go: all chunks go to the writer, and then it is closed.
That is one of the interleavings (`Run.starts`). So is what the owners of descriptors on other pipes do before
and after that (`Run.custody`).
-/

namespace Pipework

/-- A process that was started on some end of a pipe. -/
def Process.Touches (p : Process) (pipe : Nat) : Prop := ∃ c ∈ [p.stdin, p.stdout, p.stderr], c.pipe? = some pipe

namespace World

variable {w w' : World} {pipe : Nat} {entries : List (Nat × Bytes)} {events : List Event}

/-! ## What is nothing to a pipe -/

/-- What an act leaves in a pipe is what was there or enters now, but for what has been read from the front. -/
theorem Acts.took (acts : w.Acts w' entries) (known : pipe < w.pipes.length) :
    ∃ gone, w.content pipe ++ enteredInto pipe entries = gone ++ w'.content pipe := by
  have gained {bytes : Bytes} (gains : Gains pipe bytes w w') : w.content pipe ++ bytes = [] ++ w'.content pipe := by
    rw [gains.content known]
    rfl
  cases acts with
  | begins pid => exact ⟨[], gained (gains_changeProcess fun _ _ => Nat.le_refl _)⟩
  | @reads pid p found alive count =>
    by_cases mine : p.stdin = .readEnd pipe
    · refine ⟨(w.content pipe).take count, ?_⟩
      rw [mine, consume, content_setContent w _ known, if_pos rfl, enteredInto_nil, List.append_nil,
        List.take_append_drop]
    · exact ⟨[], gained (gains_consume mine)⟩
  | writes found alive own delivered => exact ⟨[], gained (gains_deliver? delivered)⟩
  | ends found alive code => exact ⟨[], gained gains_endProcess⟩
  | rests t => exact ⟨[], gained (gains_of_same rfl rfl rfl)⟩

/-- A process that was started on some end of a pipe shares its number with no other. -/
def Lone (w : World) (pipe : Nat) : Prop :=
  w.processes.Pairwise fun p q => p.Touches pipe ∨ q.Touches pipe → p.pid ≠ q.pid

/-- That lasts, as processes stay what they were started as. -/
theorem Lone.of_still (lone : w.Lone pipe) (still : w'.processes.map Process.still = w.processes.map Process.still) :
    w'.Lone pipe := by
  have before : (w.processes.map Process.still).Pairwise fun p q => p.Touches pipe ∨ q.Touches pipe →
      p.pid ≠ q.pid := List.pairwise_map.mpr lone
  rw [← still] at before
  exact List.pairwise_map.mp before

/-- Such a process is the one that its number stands for. -/
theorem Lone.process? (lone : w.Lone pipe) {p : Process} (member : p ∈ w.processes) (touches : p.Touches pipe) :
    w.process? p.pid = some p := by
  refine Wiring.find?_of_unique member (by simp) fun q known same => ?_
  by_contra other
  have : Std.Symm fun p q : Process => p.Touches pipe ∨ q.Touches pipe → p.pid ≠ q.pid :=
    ⟨fun p q apart either => (apart either.symm).symm⟩
  exact lone.forall known member other (.inr touches) (by simpa using same)

/-- What concerns no pipe and no descriptor is nothing to a pipe: a process that has ended stays so. -/
theorem Aside.spares (aside : w.Aside w') (lone : w.Lone pipe) : Spares pipe w w' := by
  obtain ⟨events, proceeds, closes⟩ := aside.proceeds
  refine ⟨Nat.le_of_eq proceeds.pipes.symm, fun _ => by simp [content, aside.pipes], fun x member _ => ?_,
    fun p' member => ?_⟩
  · rw [proceeds.descriptors] at member
    exact (List.mem_filter.mp member).1
  · have still : p'.still ∈ w.processes.map Process.still := proceeds.still ▸ List.mem_map_of_mem member
    obtain ⟨p, known, same⟩ := List.mem_map.mp still
    refine ⟨p, known, fun c isEnd => ?_⟩
    have streams := Process.streams_of_still same
    have pid := Process.pid_of_still same
    by_cases touches : c ∈ [p.stdin, p.stdout, p.stderr]
    · have found := lone.process? known ⟨c, touches, isEnd⟩
      have found' := (lone.of_still proceeds.still).process? member ⟨c, streams ▸ touches, isEnd⟩
      have ended := proceeds.exits p.pid
      rw [exit?, exit?, found, pid, found', Option.map_some, Option.map_some] at ended
      rw [Process.holds, Process.holds, ← streams, Process.alive, Process.alive]
      rcases ended with ⟨exits, -⟩ | ⟨alive, -⟩
      · exact Nat.le_of_eq (by rw [Option.some.inj exits])
      · rw [Option.some.inj alive, Option.isNone_none, if_pos rfl]
        split <;> omega
    · have nothing : p'.holds c = 0 := by
        rw [Process.holds, ← streams, List.count_eq_zero.mpr touches, ite_self]
      omega

end World

/-- The error that a pump has kept tells of how its feeding has ended. -/
structure Outflow.Told (o : Outflow) (settings : PumpSettings) (error : Option Failure) : Prop where
  closed : o.writer.closed
  /-- There is none only when all went well. -/
  quiet : error = none → o.Done settings
  /-- When there was something to feed, there is no other than that nobody could read it. -/
  refused : o.failed = false → error = none ∨ error = some (.system .brokenPipe)

namespace Supply

open World (Gains Releases)

variable {s₀ s : Supply} {w w' : World} {entries : List (Nat × Bytes)}

/-! ## While the pump does nothing -/

/-- The processes act. -/
theorem Run.plays (run : Run s₀ s) (known : s.pipe < s.world.pipes.length) (plays : s.world.Plays w entries) :
    ∃ entries taken, Run s₀ { s with world := w, entries, taken } := by
  induction plays with
  | refl => exact ⟨s.entries, s.taken, run⟩
  | tail played acts ih =>
    obtain ⟨entries, taken, reached⟩ := ih
    obtain ⟨_, passes, -⟩ := played.runs
    rw [← passes.pipes] at known
    obtain ⟨gone, took⟩ := acts.took known
    exact ⟨_, _, reached.tail (.acts acts took)⟩

/-- Something changes that is nothing to pipes, descriptors and processes. -/
theorem Run.aside (run : Run s₀ s) (pipes : w.pipes = s.world.pipes)
    (descriptors : w.descriptors = s.world.descriptors) (processes : w.processes = s.world.processes) :
    Run s₀ { s with world := w } :=
  run.tail (.elsewhere (World.gains_of_same pipes descriptors processes).spares)

/-- Owners use descriptors that lead elsewhere. -/
theorem Run.custody {c' : Custody} {held : Owner → Option Nat} (run : Run s₀ s)
    (known : s.pipe < s.world.pipes.length) (lone : s.world.Lone s.pipe) (sound : (Custody.mk s.world held).Sound)
    (apart : ∀ o d, held o = some d → s.world.pipeOf? d ≠ some s.pipe)
    (moves : Custody.Run ⟨s.world, held⟩ c') :
    ∃ entries taken, Run s₀ { s with world := c'.world, entries, taken } := by
  induction moves with
  | refl => exact ⟨s.entries, s.taken, run⟩
  | @tail c c' earlier step ih =>
    obtain ⟨entries, taken, reached⟩ := ih
    obtain ⟨events, since⟩ := Custody.Run.since earlier sound
    have known' : s.pipe < c.world.pipes.length := by rwa [since.proceeds.pipes]
    have elsewhere {o : Owner} {d : Nat} (holds : c.held o = some d) : c.world.pipeOf? d ≠ some s.pipe := by
      obtain ⟨o', mine⟩ := since.holds d ⟨o, holds⟩
      rw [since.proceeds.pipeOf?]
      exact apart o' d mine
    have spared {w : World} (spares : World.Spares s.pipe c.world w) :
        ∃ entries taken, Run s₀ { s with world := w, entries, taken } :=
      ⟨entries, taken, reached.tail (.elsewhere spares)⟩
    cases step with
    | acts acts =>
      obtain ⟨gone, took⟩ := acts.took known'
      exact ⟨_, _, reached.tail (.acts acts took)⟩
    | aside aside => exact spared (aside.spares (lone.of_still since.proceeds.still))
    | @read o d pipe holds isOpen leads count =>
      refine spared (w := c.world.consume count (.readEnd pipe)) (World.gains_consume fun same => elsewhere holds ?_).spares
      rw [leads, Channel.readEnd.inj same]
    | @write o d data w holds isOpen delivered =>
      have gains : Gains s.pipe _ c.world w := World.gains_deliver? delivered
      rw [Channel.enteredInto_entries (fun same => elsewhere holds ?_)] at gains
      · exact spared gains.spares
      · cases leads : c.world.channel? d with
        | none =>
          rw [leads] at same
          cases same
        | some channel =>
          rw [leads, Option.getD_some] at same
          exact (World.pipeOf?_of_channel? leads).trans (by rw [same]; rfl)
    | close holds isOpen => exact spared World.gains_shut.spares
    | handOn holds free => exact ⟨entries, taken, reached⟩

/-! ## The thread -/

/-- All chunks that are left go to the writer. -/
theorem Run.moveAll (run : Run s₀ s) (isOpen : s.outflow.writer.closed = false) :
    Run s₀ { s with outflow := s.outflow.moveAll, moved := s.moved + s.outflow.left.flatten.length } := by
  obtain ⟨chunks, left⟩ : ∃ chunks, s.outflow.left = chunks := ⟨_, rfl⟩
  induction chunks generalizing s with
  | nil =>
    have same : s.outflow.moveAll = s.outflow := by
      rw [Outflow.moveAll, left, List.flatten_nil, List.append_nil, ← left]
    rw [same, left]
    exact run
  | cons chunk rest ih =>
    have moved := ih (run.tail (.move isOpen left)) isOpen rfl
    have same : (s.outflow.move chunk rest).moveAll = s.outflow.moveAll := by
      simp [Outflow.moveAll, Outflow.move, left]
    have count : s.moved + chunk.length + rest.flatten.length = s.moved + s.outflow.left.flatten.length := by
      rw [left, List.flatten_cons, List.length_append, Nat.add_assoc]
    dsimp only at moved
    rw [same] at moved
    rw [← count]
    exact moved

/-- How the closing of a writer comes out: it passes on what it holds, or nobody can read that. -/
inductive Closes (o : Outflow) : Outflow → Except Failure Unit → Prop
  | whole : Closes o o.close (.ok ())
  | broken : Closes o o.lose (.error (.system .brokenPipe))

/-- The writer is closed. -/
theorem Run.close (run : Run s₀ s) (known : s.pipe < s.world.pipes.length)
    (isOpen : s.outflow.writer.closed = false) (left : s.outflow.left = [])
    (leads : s.world.channel? s.outflow.writer.descriptor = some (.writeEnd s.pipe)) :
    ∃ closing r s', Writer.close.exec s.outflow.writer s.world = (closing, r, s'.world) ∧ Run s₀ s' ∧
      s'.moved = s.moved ∧ Closes s.outflow s'.outflow closing := by
  have shown (w : World) (descriptors : w.descriptors = s.world.descriptors) :
      s.outflow.writer.descriptor ∈ w.descriptors.map (·.1) := descriptors ▸ World.mem_of_channel? leads
  by_cases empty : s.outflow.writer.held = []
  · exact ⟨_, _, _, Writer.exec_close_of_passOn isOpen (Writer.passOn_of_empty empty s.world) (shown _ rfl),
      run.tail (.close isOpen left empty), rfl, .whole⟩
  · obtain ⟨_, plays⟩ := World.settle_plays s.world
    obtain ⟨_, passes, -⟩ := plays.runs
    obtain ⟨entries, taken, settled⟩ := run.plays known plays
    have passed := Writer.passOn_of_held empty s.world
    rw [World.channel?, passes.descriptors, ← World.channel?, leads, Option.getD_some] at passed
    cases delivered : s.world.settle.deliver? (.writeEnd s.pipe) s.outflow.writer.held with
    | none =>
      rw [delivered] at passed
      exact ⟨_, _, _, Writer.exec_close_of_passOn isOpen passed (shown _ passes.descriptors),
        settled.tail (.lose isOpen delivered), rfl, .broken⟩
    | some w₁ =>
      rw [delivered] at passed
      have descriptors : w₁.descriptors = s.world.descriptors :=
        (World.passes_deliver? delivered).descriptors.trans passes.descriptors
      have through := settled.tail (.pass isOpen (List.append_nil _).symm delivered)
      exact ⟨_, _, _, Writer.exec_close_of_passOn isOpen passed (shown _ descriptors),
        through.tail (.close isOpen left rfl), rfl, .whole⟩

/-- A pump that feeds is started: all that it takes out of its buffer goes to a writer, and the writer is
closed. -/
theorem Run.starts {p p₁ : Pump} {d pipe : Nat} {chunks? : Option (List Bytes)} {outcome : Except Failure Unit}
    {memory : Memory} (run : Run s₀ s) (begins : s.outflow = (start s.world ⟨d, [], false⟩ pipe chunks?).outflow)
    (known : pipe < s.world.pipes.length) (leads : s.world.channel? d = some (.writeEnd pipe))
    (feeds : p.direction = .feed) (ends : p.pipeEnd = .descriptor d)
    (fed : Pump.feedAll.exec ({ p with thread := .running, pipeEnd := .gone }, ⟨d, [], false⟩)
      (s.world.emit (.threadStarted p.threadName))
      = (outcome, (p₁, Pump.feedInto ⟨d, [], false⟩ chunks?),
        { s.world.emit (.threadStarted p.threadName) with memory })) :
    ∃ closing s', Pump.start.exec p s.world = (.ok (),
        { p₁ with error := p₁.verdict (do closing; outcome), thread := .finished }, s'.world) ∧
      Run s₀ s' ∧ s'.moved = s.moved + (chunks?.getD []).flatten.length ∧
      Closes s.outflow.moveAll s'.outflow closing := by
  obtain ⟨w, outflow, moved, entries, taken⟩ := s
  cases begins
  have all := (run.moveAll rfl).aside (w := { w.emit (.threadStarted p.threadName) with memory }) rfl rfl rfl
  obtain ⟨closing, r, s, closed, reached, count, closes⟩ := all.close known rfl rfl leads
  obtain ⟨line, ran⟩ := Pump.exec_start_feed feeds (by rw [ends]; rfl) fed closed
  exact ⟨closing, { s with world := { s.world with log := line :: s.world.log } }, ran,
    reached.aside rfl rfl rfl, count, closes⟩

variable {p p₁ : Pump} {o o' : Outflow} {chunks? : Option (List Bytes)} {closing outcome : Except Failure Unit}

/-- The writer is closed in any case. -/
theorem Closes.closed (closes : Closes o o' closing) : o'.writer.closed := by cases closes <;> rfl

theorem Closes.pipe (closes : Closes o o' closing) : o'.pipe = o.pipe := by cases closes <;> rfl

/-- A pump that has finished without an error has nothing to tell of. -/
theorem Closes.done (closes : Closes o o' closing) (whole : o.broken = false) (failed : o.failed = chunks?.isNone)
    (fed : Pump.Fed p chunks? outcome p₁) (quiet : p₁.verdict (do closing; outcome) = none) :
    o'.Done p.settings := by
  cases closes with
  | whole =>
    change p₁.verdict outcome = none at quiet
    refine ⟨rfl, fun broken => (nomatch whole.symm.trans broken), fun isFailed => ?_⟩
    obtain ⟨e, rfl, unbroken⟩ := fed.failure (Option.isNone_iff_eq_none.mp (failed.symm.trans isFailed))
    simp [Pump.verdict, unbroken] at quiet
  | broken =>
    change p₁.verdict (.error (.system .brokenPipe)) = none at quiet
    refine ⟨rfl, fun _ => ?_, fun _ => rfl⟩
    cases ignored : p.settings.ignoresBrokenPipe with
    | true => rfl
    | false => simp [Pump.verdict, fed.settings, ignored] at quiet

/-- A pump that has finished tells of its source, or that nobody could read what was left, or of nothing. -/
theorem Closes.told (closes : Closes o o' closing) (whole : o.broken = false) (failed : o.failed = chunks?.isNone)
    (fed : Pump.Fed p chunks? outcome p₁) (clean : p.error = none) :
    o'.Told p.settings (p₁.verdict (do closing; outcome)) where
  closed := closes.closed
  quiet := closes.done whole failed fed
  refused := by
    have unchanged : p₁.error = none := fed.error.trans clean
    cases closes with
    | whole =>
      intro sourced
      have cut : chunks?.isSome := by
        rw [← Option.not_isNone, ← failed, Bool.not_eq_true']
        exact sourced
      rw [fed.success cut]
      exact .inl unchanged
    | broken =>
      intro _
      change p₁.verdict (.error (.system .brokenPipe)) = none ∨
        p₁.verdict (.error (.system .brokenPipe)) = some (.system .brokenPipe)
      rw [Pump.verdict]
      split
      · exact .inl unchanged
      · exact .inr rfl

/-- Where nothing was lost, closing has not failed. -/
theorem Closes.ok_of_unbroken (closes : Closes o o' closing) (whole : o'.broken = false) : closing = .ok () := by
  cases closes with
  | whole => rfl
  | broken => cases whole

/-- What was lost was lost when the writer was closed. -/
theorem Closes.error_of_broken (closes : Closes o o' closing) (whole : o.broken = false) (lost : o'.broken) :
    closing = .error (.system .brokenPipe) := by
  cases closes with
  | whole => exact nomatch whole.symm.trans lost
  | broken => rfl

end Supply

end Pipework
