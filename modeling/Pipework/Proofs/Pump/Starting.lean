import Pipework.Handle
import Pipework.Proofs.System.Processes
import Pipework.Proofs.Wiring.Ledger

/-!
# Starting pumps

Starting a pump never fails: what goes wrong in its thread is kept by the pump. A pump that drains
keeps its end and waits; a pump that feeds runs at once, and whatever happens on the way, it closes
its end, once, and nothing else.
-/

namespace Pipework

/-- An open writer holds back what it is given. -/
theorem Writer.exec_write {r : Writer} (isOpen : r.closed = false) (data : Bytes) (w : World) :
    (write data).exec r w = (.ok data.length, { r with held := r.held ++ data }, w) := by
  simp only [write, checkOpen, Owning.exec_bind, Owning.exec_own, isOpen, Bool.false_eq_true, if_false,
    Owning.exec_pure, Owning.exec_change]

namespace Pump

open World

/-- An open writer holds back what it is given, and the pump counts it. -/
theorem exec_writeChunk {r : Writer} (isOpen : r.closed = false) (chunk : Bytes) (p : Pump)
    (w : World) : (writeChunk chunk).exec (p, r) w = (.ok (),
      ({ p with moved := p.moved + chunk.length }, { r with held := r.held ++ chunk }), w) := by
  simp only [writeChunk, Owning.exec_bind, Owning.exec_onPart, Writer.exec_write isOpen, count,
    Owning.exec_change]

theorem exec_onMemory {α : Type} (f : Memory → Except Failure α × Memory) (w : World) :
    (onMemory f).exec w = ((f w.memory).1, { w with memory := (f w.memory).2 }) := by
  simp only [onMemory, Sim.exec_bind, Sim.exec_world, Sim.exec_modify, Sim.exec_ofExcept]

/-- What a step of feeding may do: it holds bytes back in the writer and moves on in the buffer, and
the writer keeps its end, and the pump its settings and its failure. -/
structure Holds (s s' : Pump × Writer) (w w' : World) : Prop where
  memory : ∃ memory, w' = { w with memory }
  descriptor : s'.2.descriptor = s.2.descriptor
  closed : s'.2.closed = s.2.closed
  pipeEnd : s'.1.pipeEnd = s.1.pipeEnd
  settings : s'.1.settings = s.1.settings
  error : s'.1.error = s.1.error

theorem Holds.passes {s s' : Pump × Writer} {w w' : World} (holds : Holds s s' w w') : w.Passes w' [] := by
  obtain ⟨_, rfl⟩ := holds.memory
  exact passes_of_same rfl rfl rfl rfl rfl rfl rfl

/-- Whether a step of feeding only holds bytes back. -/
def Holding {α : Type} (m : Feeding α) : Prop := ∀ s w, Holds s (m.exec s w).2.1 w (m.exec s w).2.2

namespace Holding

variable {α β : Type}

theorem same {m : Feeding α} (unchanged : ∀ s w, (m.exec s w).2 = (s, w)) :
    Holding m := fun s w => by
  rw [unchanged s w]
  exact ⟨⟨_, rfl⟩, rfl, rfl, rfl, rfl, rfl⟩

theorem pure (a : α) : Holding (pure a : Feeding α) := same fun _ _ => rfl

theorem throw (e : Failure) : Holding (throw e : Feeding α) := same fun _ _ => rfl

theorem own : Holding (Owning.own : Feeding (Pump × Writer)) := same fun _ _ => rfl

theorem ofExcept (e : Except Failure α) :
    Holding (Sim.ofExcept e : Feeding α) := same fun _ _ => rfl

theorem world : Holding (world : Feeding World) := same fun _ _ => rfl

theorem bind {m : Feeding α} {f : α → Feeding β} (first : Holding m) (second : ∀ a, Holding (f a)) :
    Holding (m >>= f) := by
  intro s w
  have held := first s w
  rw [Owning.exec_bind]
  generalize m.exec s w = result at held ⊢
  obtain ⟨outcome, s₁, w₁⟩ := result
  cases outcome with
  | error e => exact held
  | ok a =>
    have later := second a s₁ w₁
    refine ⟨?_, later.descriptor.trans held.descriptor, later.closed.trans held.closed,
      later.pipeEnd.trans held.pipeEnd, later.settings.trans held.settings, later.error.trans held.error⟩
    obtain ⟨_, same⟩ : ∃ memory, w₁ = { w with memory } := held.memory
    subst same
    exact later.memory

theorem onMemory (f : Memory → Except Failure α × Memory) :
    Holding (Pump.onMemory f : Feeding α) := by
  intro s w
  rw [Owning.exec_lift, exec_onMemory]
  exact ⟨⟨_, rfl⟩, rfl, rfl, rfl, rfl, rfl⟩

theorem writeChunk (chunk : Bytes) : Holding (Pump.writeChunk chunk) := by
  intro s w
  obtain ⟨p, r⟩ := s
  cases isClosed : r.closed with
  | true =>
    have run : (Writer.write chunk).exec r w = (.error (.misuse .writeToClosed), r, w) := by
      simp [Writer.write, Writer.checkOpen, Owning.exec_bind, isClosed]
    simp only [Pump.writeChunk, Owning.exec_bind, Owning.exec_onPart, run]
    exact ⟨⟨_, rfl⟩, rfl, rfl, rfl, rfl, rfl⟩
  | false =>
    rw [exec_writeChunk isClosed]
    exact ⟨⟨_, rfl⟩, rfl, rfl, rfl, rfl, rfl⟩

theorem forM (chunks : List Bytes) : Holding (chunks.forM Pump.writeChunk) := by
  induction chunks with
  | nil => exact .pure ()
  | cons chunk rest ih => exact (writeChunk chunk).bind fun _ => ih

theorem feedBytes (b : Bytes) : Holding (Pump.feedBytes b) := by
  refine own.bind fun s => ?_
  split
  · exact .throw _
  · next size _ =>
    dsimp only
    split
    · refine (throw _).bind fun _ => ?_
      split
      · exact forM _
      · exact .pure ()
    · split
      · exact forM _
      · exact .pure ()

theorem feedObject (ref : ObjectRef) (chunks : Nat) : Holding (Pump.feedObject ref chunks) := by
  induction chunks with
  | zero => exact .pure ()
  | succ chunks ih =>
    refine own.bind fun s => (onMemory _).bind fun chunk => ?_
    split
    · exact .pure ()
    · exact .pure ()
    · exact (writeChunk _).bind fun _ => ih
    · exact (ofExcept _).bind fun _ => (writeChunk _).bind fun _ => ih

theorem feedAll : Holding Pump.feedAll := by
  refine own.bind fun s => ?_
  dsimp only
  split
  · exact (ofExcept _).bind fun b => feedBytes b
  · exact feedBytes _
  · exact feedBytes _
  · next ref _ =>
    refine world.bind fun w => ?_
    split
    · exact feedBytes _
    · exact feedObject ref _
  · exact .throw _

end Holding

end Pump

namespace Writer

open World

/-- A writer that holds back nothing passes on nothing. -/
theorem passOn_of_empty {r : Writer} (empty : r.held = []) (w : World) :
    passOn.exec r w = (.ok (), r, w) := by
  simp [passOn, Owning.exec_bind, empty]

/-- What is held back is written when the system has settled, if somebody can read it then. -/
theorem passOn_of_held {r : Writer} (holds : r.held ≠ []) (w : World) : passOn.exec r w =
    (w.settle.deliver? ((w.settle.channel? r.descriptor).getD .null) r.held).elim
      (.error (.system .brokenPipe), r, w.settle) fun w₁ => (.ok (), { r with held := [] }, w₁) := by
  simp only [passOn, Owning.exec_bind, Owning.exec_own, List.isEmpty_eq_false_iff.mpr holds,
    Bool.false_eq_true, if_false, Owning.exec_lift, Sim.exec_settle, Sim.exec_world]
  cases w.settle.deliver? ((w.settle.channel? r.descriptor).getD .null) r.held <;> rfl

/-- Passing on what is held back lets the system run, and no more. -/
theorem passOn_runs (r : Writer) (w : World) : w.Runs (passOn.exec r w).2.2 := by
  by_cases holds : r.held = []
  · rw [passOn_of_empty holds]
    exact .refl w
  · rw [passOn_of_held holds]
    cases delivered : w.settle.deliver? ((w.settle.channel? r.descriptor).getD .null) r.held with
    | none => exact settle_runs w
    | some w₁ => exact (settle_runs w).trans (passes_deliver? delivered).runs

/-- Closing a writer passes on what it holds and gives up its descriptor, whatever became of that. -/
theorem exec_close_of_passOn {r r' : Writer} {w w' : World} {outcome : Except Failure Unit}
    (notClosed : r.closed = false) (passed : passOn.exec r w = (outcome, r', w'))
    (isOpen : r.descriptor ∈ w'.descriptors.map (·.1)) : close.exec r w
      = (outcome, { r' with held := [], closed := true }, w'.shut r.descriptor) := by
  simp only [close, Owning.exec_bind, Owning.exec_own, notClosed, Bool.false_eq_true, if_false,
    Owning.exec_attempt, passed, Owning.exec_lift, Sim.exec_close isOpen, Owning.exec_change,
    Sim.exec_ofExcept]

theorem exec_close {r : Writer} {w : World} (notClosed : r.closed = false)
    (isOpen : r.descriptor ∈ w.descriptors.map (·.1)) :
    ∃ outcome r' w', close.exec r w = (outcome, r', w'.shut r.descriptor) ∧ w.Runs w' := by
  obtain ⟨events, passes, -⟩ := passOn_runs r w
  rw [← passes.descriptors] at isOpen
  exact ⟨_, _, _, exec_close_of_passOn notClosed rfl isOpen, passOn_runs r w⟩

end Writer

namespace Pump

open World

/-- Feeding ends with closing the writer, and what that failed with comes first. -/
theorem exec_feed {p p₁ : Pump} {r r₁ r₂ : Writer} {w w₁ w₂ : World} {outcome closing : Except Failure Unit}
    (fed : feedAll.exec (p, r) w = (outcome, (p₁, r₁), w₁))
    (closed : Writer.close.exec r₁ w₁ = (closing, r₂, w₂)) :
    (feed r).exec p w = (do closing; outcome, p₁, w₂) := by
  simp only [feed, Owning.exec_bind, Owning.exec_own, Owning.exec_liftRunOn, fed, Owning.exec_change,
    closed, Owning.exec_lift, Sim.exec_ofExcept]
  cases closing <;> rfl

theorem exec_move_of_feed {p : Pump} {r : Writer} (isFeed : p.direction = .feed)
    (ends : writerOf p.pipeEnd = some r) (w : World) :
    move.exec p w = (feed r).exec { p with pipeEnd := .gone } w := by
  simp only [move, Owning.exec_bind, Owning.exec_own, Owning.exec_change, isFeed, ends]

theorem exec_move_of_drain {p : Pump} {r : Reader} (isDrain : p.direction = .drain)
    (ends : readerOf p.pipeEnd = some r) (w : World) :
    move.exec p w = (drain r).exec { p with pipeEnd := .gone } w := by
  simp only [move, Owning.exec_bind, Owning.exec_own, Owning.exec_change, isDrain, ends]

/-- A pump that feeds through a descriptor lets the system run and closes the descriptor. -/
theorem exec_move_feed {p : Pump} {d : Nat} {w : World} (isFeed : p.direction = .feed)
    (isDescriptor : p.pipeEnd = .descriptor d) (isOpen : d ∈ w.descriptors.map (·.1)) :
    ∃ outcome p' w', move.exec p w = (outcome, p', w'.shut d) ∧ w.Runs w' ∧ p'.pipeEnd = .gone := by
  have held := Holding.feedAll ({ p with pipeEnd := .gone }, ⟨d, [], false⟩) w
  generalize feeding : feedAll.exec ({ p with pipeEnd := .gone }, ⟨d, [], false⟩) w = fed at held
  obtain ⟨outcome, ⟨p₁, r⟩, w₁⟩ := fed
  have number : r.descriptor = d := held.descriptor
  have stillOpen : r.descriptor ∈ w₁.descriptors.map (·.1) := by
    rw [number, held.passes.descriptors]
    exact isOpen
  obtain ⟨closing, r', w₂, closed, runs⟩ := Writer.exec_close held.closed stillOpen
  rw [number] at closed
  refine ⟨do closing; outcome, p₁, w₂, ?_, held.passes.runs.trans runs, held.pipeEnd⟩
  rw [exec_move_of_feed isFeed (by rw [isDescriptor]; rfl), exec_feed feeding closed]

theorem exec_say (level : Level) (text : Text) (p : Pump) (w : World) :
    ∃ line, (say level text).exec p w = (.ok (), p, { w with log := line :: w.log }) := by
  simp only [say, Owning.exec_bind, Owning.exec_own, Owning.exec_lift, Sim.exec_note]
  exact ⟨_, rfl⟩

/-- The failure that a pump keeps after its move. -/
def verdict (p : Pump) : Except Failure Unit → Option Failure
  | .ok () => p.error
  | .error e => if e.isBrokenPipe && p.settings.ignoresBrokenPipe then p.error else some e

/-- The thread of a pump comes to its end whatever happens in it, and afterwards only writes to the
log. -/
theorem exec_run (p : Pump) (w : World) : ∃ line, run.exec p w =
    let (outcome, p₁, w₁) := move.exec p w
    (.ok (), { p₁ with error := p₁.verdict outcome, thread := .finished },
      { w₁ with log := line :: w₁.log }) := by
  unfold run
  rw [Owning.exec_bind, Owning.exec_attempt]
  dsimp only
  rw [Owning.exec_bind, Owning.exec_own]
  generalize move.exec p w = moved
  obtain ⟨outcome, p₁, w₁⟩ := moved
  dsimp only
  cases outcome with
  | ok _ =>
    obtain ⟨line, said⟩ := exec_say .debug
      (p₁.direction.word ++ " done, " ++ Text.ofNat p₁.moved ++ " bytes") p₁ w₁
    refine ⟨line, ?_⟩
    rw [Owning.exec_bind, said]
    rfl
  | error e =>
    have kept (text : Text) : ∃ line, (do
        say .error text
        Owning.change fun p => { p with error := some e }
        Owning.change fun p => { p with thread := .finished } : Owning Pump Unit).exec p₁ w₁
          = (.ok (), { p₁ with error := some e, thread := .finished },
            { w₁ with log := line :: w₁.log }) := by
      obtain ⟨line, said⟩ := exec_say .error text p₁ w₁
      refine ⟨line, ?_⟩
      rw [Owning.exec_bind, said]
      rfl
    cases broken : e.isBrokenPipe with
    | true =>
      dsimp only
      cases ignored : p₁.settings.ignoresBrokenPipe with
      | true =>
        obtain ⟨line, said⟩ := exec_say .debug
          ("reader closed its end after " ++ Text.ofNat p₁.moved ++ " bytes") p₁ w₁
        refine ⟨line, ?_⟩
        simp only [if_true, Owning.exec_bind, said, Owning.exec_change, verdict, broken, ignored,
          Bool.and_self]
      | false =>
        obtain ⟨line, said⟩ := kept ("reader closed its end after " ++ Text.ofNat p₁.moved ++ " bytes")
        refine ⟨line, ?_⟩
        simpa [verdict, broken, ignored] using said
    | false =>
      obtain ⟨line, said⟩ := kept (p₁.direction.word ++ " failed: " ++ e.message)
      refine ⟨line, ?_⟩
      simpa [verdict, broken] using said

/-- The descriptors that the thread of a pump closes as soon as the pump is started: a pump that
feeds has all it needs and runs at once. -/
def closesAtOnce (p : Pump) : List Nat := if p.direction = .feed then p.descriptors else []

/-- A pump before and after its start. -/
structure Launched (p p' : Pump) : Prop where
  drain : p.direction = .drain → p' = { p with thread := .running }
  feed : p.direction = .feed → p'.thread = .finished ∧ p'.pipeEnd = .gone

/-- A pump that drains waits when it is started. -/
theorem exec_start_of_drain {p : Pump} (drains : p.direction = .drain) (w : World) :
    start.exec p w = (.ok (), { p with thread := .running }, w.emit (.threadStarted p.threadName)) := by
  simp only [start, Owning.exec_bind, Owning.exec_own, Owning.exec_lift, Sim.exec_emit,
    Owning.exec_change, drains, Owning.exec_pure]

/-- A pump that feeds runs when it is started. -/
theorem exec_start_of_feed {p : Pump} (feeds : p.direction = .feed) (w : World) :
    start.exec p w = run.exec { p with thread := .running } (w.emit (.threadStarted p.threadName)) := by
  simp only [start, Owning.exec_bind, Owning.exec_own, Owning.exec_lift, Sim.exec_emit,
    Owning.exec_change, feeds]

/-- Starting a pump: its thread starts, may see commands end, and closes what it closes at once. -/
theorem exec_start {p : Pump} {w : World} (fresh : p.IsFresh)
    (isOpen : ∀ d ∈ p.descriptors, d ∈ w.descriptors.map (·.1)) :
    ∃ p' w₁ w', start.exec p w = (.ok (), p', w') ∧ Launched p p' ∧
      (w.emit (.threadStarted p.threadName)).Runs w₁ ∧
      (w₁.shutAll p.closesAtOnce).Passes w' [] := by
  obtain ⟨-, d, isDescriptor⟩ := fresh
  have descriptors : p.descriptors = [d] := by rw [Pump.descriptors, isDescriptor]
  cases direction : p.direction with
  | drain =>
    have closing : p.closesAtOnce = [] := by simp [closesAtOnce, direction]
    refine ⟨_, w.emit (.threadStarted p.threadName), _, exec_start_of_drain direction w,
      ⟨fun _ => rfl, fun feeds => ?_⟩, .refl _, ?_⟩
    · cases direction.symm.trans feeds
    · rw [closing]
      exact .refl _
  | feed =>
    have closing : p.closesAtOnce = [d] := by simp [closesAtOnce, direction, descriptors]
    have stillOpen : d ∈ (w.emit (.threadStarted p.threadName)).descriptors.map (·.1) :=
      isOpen d (by simp [descriptors])
    obtain ⟨outcome, p₁, w₁, moved, runs, gone⟩ :=
      exec_move_feed (p := { p with thread := .running }) direction isDescriptor stillOpen
    obtain ⟨line, ran⟩ := exec_run { p with thread := .running } (w.emit (.threadStarted p.threadName))
    rw [moved] at ran
    refine ⟨_, w₁, { w₁.shut d with log := line :: (w₁.shut d).log },
      (exec_start_of_feed direction w).trans ran, ⟨fun drains => ?_, fun _ => ⟨rfl, gone⟩⟩, runs, ?_⟩
    · cases direction.symm.trans drains
    · rw [closing]
      exact passes_of_same rfl rfl rfl rfl rfl rfl rfl

end Pump

/-- A step on the first of some pumps, and then, unless that failed, on the others. -/
theorem Handle.run_onPumps_cons (step : Owning Pump Unit) (p : Pump) (rest : List Pump) (w : World) :
    Id.run ((onPumps step (p :: rest)).run w) =
      match step.exec p w with
      | (.error e, p', w₁) => ((.error e, p' :: rest), w₁)
      | (.ok (), p', w₁) =>
        let others := Id.run ((onPumps step rest).run w₁)
        ((others.1.1, p' :: others.1.2), others.2) := by
  have ran : Id.run ((step.runOn p).run w)
      = (((step.exec p w).1, (step.exec p w).2.1), (step.exec p w).2.2) := rfl
  rw [onPumps, StateT.run_bind, Id.run_bind]
  change Id.run (StateT.run _ _) = _ at ran
  rw [ran]
  generalize step.exec p w = result
  obtain ⟨outcome, p', w₁⟩ := result
  cases outcome <;> rfl

/-- Some pumps and then others, when nothing failed on the first ones. -/
theorem Handle.run_onPumps_append {step : Owning Pump Unit} {crew crew' : List Pump} {w w₁ : World}
    (first : Id.run ((onPumps step crew).run w) = ((.ok (), crew'), w₁)) (rest : List Pump) :
    Id.run ((onPumps step (crew ++ rest)).run w) =
      let others := Id.run ((onPumps step rest).run w₁)
      ((others.1.1, crew' ++ others.1.2), others.2) := by
  induction crew generalizing crew' w with
  | nil =>
    cases first
    rfl
  | cons p crew ih =>
    rw [run_onPumps_cons] at first
    rw [List.cons_append, run_onPumps_cons]
    generalize step.exec p w = result at first
    obtain ⟨outcome, p', w'⟩ := result
    cases outcome with
    | error e => cases first
    | ok _ =>
      dsimp only at first
      generalize more : Id.run ((onPumps step crew).run w') = result at first
      obtain ⟨⟨outcome, pumps⟩, w''⟩ := result
      cases first
      dsimp only
      rw [ih more]
      rfl

theorem Handle.exec_onPumps {σ : Type} (step : Owning Pump Unit) (pumps : List Pump) (s : σ) (w : World) :
    (liftM (onPumps step pumps) : Owning σ (Except Failure Unit × List Pump)).exec s w
      = (.ok (Id.run ((onPumps step pumps).run w)).1, s, (Id.run ((onPumps step pumps).run w)).2) := rfl

theorem Handle.exec_eachPump (step : Owning Pump Unit) (h : Handle) (w : World) :
    (eachPump step).exec h w = ((Id.run ((onPumps step h.pumps).run w)).1.1,
      { h with pumps := (Id.run ((onPumps step h.pumps).run w)).1.2 },
      (Id.run ((onPumps step h.pumps).run w)).2) := rfl

end Pipework
