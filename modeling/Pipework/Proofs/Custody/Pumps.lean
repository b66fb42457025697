import Pipework.Proofs.Custody.Ends

/-!
# The owner that is a pump

The thread of a pump takes the pump's end, uses it and closes it, whatever happens on the way. Until then the
pump is the owner, and afterwards nobody is: a pump that has finished holds nothing, and one that still runs
is a drain that holds its reader (`Pump.Settled`). Starting a pump and waiting for it are runs of custody in
which its part is taken by the pump with its number.
-/

namespace Pipework

/-- The descriptor that a pump holds by its end. -/
def PumpEnd.holding : PumpEnd → Option Nat
  | .gone => none
  | .descriptor n => some n
  | .reader r => r.holding
  | .writer r => r.holding

/-- The descriptor that a pump holds. -/
def Pump.holding (p : Pump) : Option Nat := p.pipeEnd.holding

namespace Pump

theorem holding_of_readerOf {p : Pump} {r : Reader} (ends : readerOf p.pipeEnd = some r) :
    p.holding = r.holding := by
  unfold holding
  generalize p.pipeEnd = pipeEnd at ends
  cases pipeEnd <;> cases ends <;> rfl

theorem holding_of_writerOf {p : Pump} {r : Writer} (ends : writerOf p.pipeEnd = some r) :
    p.holding = r.holding := by
  unfold holding
  generalize p.pipeEnd = pipeEnd at ends
  cases pipeEnd <;> cases ends <;> rfl

/-- The end of a pump suits its direction. -/
def Suited (p : Pump) : Prop :=
  match p.direction with
  | .drain => (readerOf p.pipeEnd).isSome
  | .feed => (writerOf p.pipeEnd).isSome

/-- A pump that has been started has finished without an end, or it is a drain that still has its reader. -/
def Settled (p : Pump) : Prop :=
  p.thread = .finished ∧ p.pipeEnd = .gone ∨
    p.thread = .running ∧ p.direction = .drain ∧ (readerOf p.pipeEnd).isSome

/-- A pump that has finished holds nothing. -/
theorem Settled.holding {p : Pump} (settled : p.Settled) (finished : p.thread = .finished) :
    p.holding = none := by
  rcases settled with ⟨-, gone⟩ | ⟨running, -⟩
  · rw [Pump.holding, gone]
    rfl
  · cases finished.symm.trans running

end Pump

namespace Custody

open World

variable {c : Custody} {f : Owner → Option Nat} {o : Owner} {w : World} {p : Pump}

section Sound

variable (sound : c.Sound)
include sound

/-- Draining is done by the owner of the reader, and ends the ownership. -/
theorem Run.drain {r : Reader} (run : Run c ⟨w, f⟩) (holds : f o = r.holding) (p : Pump) :
    ∃ outcome p' w', (Pump.drain r).exec p w = (outcome, p', w') ∧ p'.pipeEnd = p.pipeEnd ∧
      Run c ⟨w', Function.update f o none⟩ := by
  have drains : Pump.Readable r fun q w => q.pipeEnd = p.pipeEnd ∧ Run c ⟨w, f⟩ :=
    { moves := fun _ _ _ _ => id
      plays := fun _ _ _ _ plays so => ⟨so.1, so.2.plays plays⟩
      aside := fun _ _ _ _ so => ⟨so.1, so.2.of_same rfl rfl rfl rfl rfl rfl rfl⟩
      take := fun isOpen _ _ _ count leads so => ⟨so.1, so.2.take sound holds isOpen leads count⟩ }
  have drained := drains.drainLoop ((r.content w).length + 1) p w ⟨rfl, run⟩
  unfold Pump.drain
  simp only [Owning.exec_bind, Owning.exec_lift, Sim.exec_world, Owning.exec_attempt]
  generalize (Pump.drainLoop r ((r.content w).length + 1)).exec p w = result at drained
  obtain ⟨outcome, p₁, w₁⟩ := result
  obtain ⟨same, run₁⟩ := drained
  obtain ⟨w₂, closed, run₂⟩ := run₁.closeReader sound holds
  have given : (Pump.closeReader r).exec w₁ = (.ok (), w₂) := by
    simp only [Pump.closeReader, Sim.exec_bind, Sim.exec_runOn, closed, Sim.exec_ofExcept]
  rw [given]
  cases outcome with
  | error e => exact ⟨_, _, _, rfl, same, run₂⟩
  | ok _ =>
    obtain ⟨_, _, written⟩ := Pump.exec_writeTail p₁ w₂
    exact ⟨_, _, _, written, same, run₂.of_same rfl rfl rfl rfl rfl rfl rfl⟩

/-- Feeding is done by the owner of the writer, and ends the ownership. -/
theorem Run.feed {r : Writer} (run : Run c ⟨w, f⟩) (holds : f o = r.holding) (p : Pump) :
    ∃ outcome p' w', (Pump.feed r).exec p w = (outcome, p', w') ∧ p'.pipeEnd = p.pipeEnd ∧
      Run c ⟨w', Function.update f o none⟩ := by
  have held := Pump.Holding.feedAll (p, r) w
  generalize fed : Pump.feedAll.exec (p, r) w = result at held
  obtain ⟨outcome, ⟨p₁, r₁⟩, w₁⟩ := result
  obtain ⟨_, same⟩ : ∃ memory, w₁ = { w with memory } := held.memory
  have run₁ : Run c ⟨w₁, f⟩ := by
    rw [same]
    exact run.of_same rfl rfl rfl rfl rfl rfl rfl
  have mine : f o = r₁.holding := by
    rw [holds, Writer.holding, Writer.holding, held.closed, held.descriptor]
  obtain ⟨closing, r₂, w₂, closed, -, run₂, -, -⟩ := run₁.closeWriter sound mine
  exact ⟨_, _, _, Pump.exec_feed fed closed, held.pipeEnd, run₂⟩

/-- The thread of a pump that is the owner ends the ownership. -/
theorem Run.thread (run : Run c ⟨w, f⟩) (holds : f o = p.holding) (suited : p.Suited) :
    ∃ p' w', Pump.run.exec p w = (.ok (), p', w') ∧ p'.thread = .finished ∧ p'.pipeEnd = .gone ∧
      Run c ⟨w', Function.update f o none⟩ := by
  have moved : ∃ outcome p' w', Pump.move.exec p w = (outcome, p', w') ∧ p'.pipeEnd = .gone ∧
      Run c ⟨w', Function.update f o none⟩ := by
    unfold Pump.Suited at suited
    cases direction : p.direction with
    | drain =>
      rw [direction] at suited
      obtain ⟨r, ends⟩ := Option.isSome_iff_exists.mp suited
      rw [Pump.exec_move_of_drain direction ends]
      exact run.drain sound (holds.trans (Pump.holding_of_readerOf ends)) _
    | feed =>
      rw [direction] at suited
      obtain ⟨r, ends⟩ := Option.isSome_iff_exists.mp suited
      rw [Pump.exec_move_of_feed direction ends]
      exact run.feed sound (holds.trans (Pump.holding_of_writerOf ends)) _
  obtain ⟨outcome, p₁, w₁, moved, gone, run₁⟩ := moved
  obtain ⟨line, ran⟩ := Pump.exec_run p w
  rw [moved] at ran
  exact ⟨_, _, ran, rfl, gone, run₁.of_same rfl rfl rfl rfl rfl rfl rfl⟩

/-- Starting a pump: a drain keeps its end, and a feed is done with it at once. -/
theorem Run.start (run : Run c ⟨w, f⟩) (holds : f o = p.holding) (suited : p.Suited) :
    ∃ p' w', Pump.start.exec p w = (.ok (), p', w') ∧ p'.Settled ∧
      Run c ⟨w', Function.update f o p'.holding⟩ := by
  have started : Run c ⟨w.emit (.threadStarted p.threadName), f⟩ := run.emit rfl rfl rfl fun _ => rfl
  cases direction : p.direction with
  | drain =>
    refine ⟨_, _, Pump.exec_start_of_drain direction w, .inr ⟨rfl, direction, ?_⟩, ?_⟩
    · simpa [Pump.Suited, direction] using suited
    · have same : ({ p with thread := .running } : Pump).holding = f o := holds.symm
      rwa [same, Function.update_eq_self]
  | feed =>
    obtain ⟨p', w', ran, finished, gone, run'⟩ :=
      started.thread (p := { p with thread := .running }) sound holds suited
    refine ⟨p', w', (Pump.exec_start_of_feed direction w).trans ran, .inl ⟨finished, gone⟩, ?_⟩
    rwa [Pump.Settled.holding (.inl ⟨finished, gone⟩) finished]

/-- Waiting for a pump: a drain that has all it will get finishes, and else it stays as it is. -/
theorem Run.join (run : Run c ⟨w, f⟩) (holds : f o = p.holding) (settled : p.Settled) (limit : Option Time) :
    ((Pump.join limit).exec p w).2.1.Settled ∧
      (((Pump.join limit).exec p w).2.1.thread = .running → ((Pump.join limit).exec p w).2.1 = p) ∧
      Run c ⟨((Pump.join limit).exec p w).2.2,
        Function.update f o ((Pump.join limit).exec p w).2.1.holding⟩ := by
  have joined : Run c ⟨w.emit (.joined p.threadName limit), f⟩ := run.emit rfl rfl rfl fun _ => rfl
  have kept {w' : World} (later : Run c ⟨w', f⟩) : Run c ⟨w', Function.update f o p.holding⟩ := by
    rwa [← holds, Function.update_eq_self]
  unfold Pump.join
  rw [Owning.exec_bind, Owning.exec_own]
  dsimp only
  rcases settled with ⟨finished, gone⟩ | ⟨running, isDrain, ends⟩
  · rw [finished]
    exact ⟨.inl ⟨finished, gone⟩, fun _ => rfl, kept joined⟩
  · simp only [running]
    obtain ⟨outcome, w₁, entries, waited, plays, -⟩ :=
      Sim.exec_runUntil p.inputEnded limit (w.emit (.joined p.threadName limit))
    have later := joined.plays plays
    simp only [Owning.exec_bind, Owning.exec_lift, Sim.exec_emit, waited]
    cases outcome with
    | error e => exact ⟨.inr ⟨running, isDrain, ends⟩, fun _ => rfl, kept later⟩
    | ok ended => cases ended with
      | false => exact ⟨.inr ⟨running, isDrain, ends⟩, fun _ => rfl, kept later⟩
      | true =>
        have suited : p.Suited := by simpa [Pump.Suited, isDrain] using ends
        obtain ⟨p', w', ran, finished, gone, run'⟩ := later.thread sound holds suited
        simp only [if_true, ran]
        refine ⟨.inl ⟨finished, gone⟩, fun runs => ?_, ?_⟩
        · cases finished.symm.trans runs
        · rwa [Pump.Settled.holding (.inl ⟨finished, gone⟩) finished]

end Sound

/-! ## Several pumps -/

/-- Who holds what, by the ends of a handle and by pumps with their numbers. -/
def heldBy (ends : Stream → Option Nat) (pumps : List Pump) : Owner → Option Nat
  | .endpoint s => ends s
  | .pump number => pumps[number]?.bind Pump.holding

variable {ends : Stream → Option Nat} {before after pumps : List Pump}

theorem heldBy_pump (ends : Stream → Option Nat) (before after : List Pump) (p : Pump) :
    heldBy ends (before ++ p :: after) (.pump before.length) = p.holding := by
  simp [heldBy]

/-- One pump changes. -/
theorem heldBy_set (ends : Stream → Option Nat) (before after : List Pump) (p p' : Pump) :
    heldBy ends (before ++ p' :: after)
      = Function.update (heldBy ends (before ++ p :: after)) (.pump before.length) p'.holding := by
  funext o
  cases o with
  | endpoint s => rw [Function.update_of_ne (by simp)]; rfl
  | pump number =>
    by_cases here : number = before.length
    · rw [here, Function.update_self, heldBy_pump]
    · rw [Function.update_of_ne (by simpa using here)]
      simp only [heldBy]
      congr 1
      rw [List.getElem?_append, List.getElem?_append]
      split
      · rfl
      · next past =>
        obtain ⟨k, within⟩ : ∃ k, number - before.length = k + 1 := ⟨number - before.length - 1, by omega⟩
        rw [within]
        rfl

/-- What each pump's part in a step is, the parts of all of them are one after the other. A step that fails
leaves the pumps after it alone, and the failure of all of them is that of its part. -/
theorem Run.onPumps (step : Owning Pump Unit) (Before After : Pump → Prop) (ends : Stream → Option Nat)
    (before after : List Pump)
    (each : ∀ p f o w, Before p → f o = p.holding → Run c ⟨w, f⟩ →
      After (step.exec p w).2.1 ∧
        Run c ⟨(step.exec p w).2.2, Function.update f o (step.exec p w).2.1.holding⟩)
    (pumps : List Pump) {w : World} (fit : ∀ p ∈ pumps, Before p)
    (run : Run c ⟨w, heldBy ends (before ++ (pumps ++ after))⟩) :
    (Id.run ((Handle.onPumps step pumps).run w)).1.2.length = pumps.length ∧
      (∀ p ∈ (Id.run ((Handle.onPumps step pumps).run w)).1.2, After p ∨ Before p) ∧
      ((Id.run ((Handle.onPumps step pumps).run w)).1.1 = .ok () →
        ∀ p ∈ (Id.run ((Handle.onPumps step pumps).run w)).1.2, After p) ∧
      (∀ e, (Id.run ((Handle.onPumps step pumps).run w)).1.1 = .error e → ∃ p ∈ pumps, ∃ f o w,
        Before p ∧ f o = p.holding ∧ Run c ⟨w, f⟩ ∧ (step.exec p w).1 = .error e) ∧
      Run c ⟨(Id.run ((Handle.onPumps step pumps).run w)).2,
        heldBy ends (before ++ ((Id.run ((Handle.onPumps step pumps).run w)).1.2 ++ after))⟩ := by
  induction pumps generalizing before w with
  | nil => exact ⟨rfl, by simp [Handle.onPumps], by simp [Handle.onPumps], by simp [Handle.onPumps], run⟩
  | cons p rest ih =>
    have mine := heldBy_pump ends before (rest ++ after) p
    obtain ⟨fits, run₁⟩ := each p _ _ w (fit p List.mem_cons_self) mine run
    rw [Handle.run_onPumps_cons]
    generalize first : step.exec p w = result at fits run₁
    obtain ⟨outcome, p', w₁⟩ := result
    rw [← heldBy_set] at run₁
    have others : ∀ q ∈ rest, Before q := fun q member => fit q (List.mem_cons_of_mem _ member)
    cases outcome with
    | error e =>
      refine ⟨rfl, fun q member => ?_, fun done => (by cases done), ?_, run₁⟩
      · rcases List.mem_cons.mp member with rfl | member
        · exact .inl fits
        · exact .inr (others q member)
      · rintro _ ⟨⟩
        exact ⟨p, List.mem_cons_self, _, _, _, fit p List.mem_cons_self, mine, run, by rw [first]⟩
    | ok _ =>
      have shifted : before ++ p' :: (rest ++ after) = (before ++ [p']) ++ (rest ++ after) := by simp
      rw [shifted] at run₁
      obtain ⟨length, either, all, failed, run₂⟩ := ih _ others run₁
      dsimp only
      refine ⟨congrArg (· + 1) length, ?_, fun ran => ?_, fun e same => ?_, ?_⟩
      · intro q member
        rcases List.mem_cons.mp member with rfl | member
        · exact .inl fits
        · exact either q member
      · intro q member
        rcases List.mem_cons.mp member with rfl | member
        · exact fits
        · exact all ran q member
      · obtain ⟨q, member, rest⟩ := failed e same
        exact ⟨q, List.mem_cons_of_mem _ member, rest⟩
      · rw [List.append_assoc] at run₂
        exact run₂

end Custody

end Pipework
