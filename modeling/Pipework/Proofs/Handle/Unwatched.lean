import Pipework.Proofs.Capture.Ending

/-!
# Steps that look at no process

Closing an end, flushing, draining, feeding and reading let processes run and end. Else they change neither a
process nor what background reapers wait for, so that whatever processes cannot undo by themselves holds after
each of these as before it (`World.Steady`).

How a process ended becomes known to its starter only when the starter looks. None of these steps does: what is
known of every process stays as it was (`World.Overlooks`). Of all that a handle does, only polling and waiting
look.
-/

namespace Pipework

namespace World

/-- Some time has passed in which nobody looked at a process. -/
structure Overlooks (w w' : World) : Prop where
  seen : ∀ pid, w'.seen? pid = w.seen? pid
  /-- What has ended stays so. -/
  exits : ∀ pid code, w.exit? pid = some (some code) → w'.exit? pid = some (some code)

variable {w₀ w w' : World} {pids : List Nat} {entries : List (Nat × Bytes)}

namespace Overlooks

theorem refl (w : World) : w.Overlooks w := ⟨fun _ => rfl, fun _ _ => id⟩

theorem trans (first : w₀.Overlooks w) (second : w.Overlooks w') : w₀.Overlooks w' where
  seen pid := (second.seen pid).trans (first.seen pid)
  exits pid code ended := second.exits pid code (first.exits pid code ended)

theorem of_processes (same : w'.processes = w.processes) : w.Overlooks w' where
  seen pid := by rw [seen?, process?, same]; rfl
  exits pid code ended := by rwa [exit?, process?, same]

/-- One process changes, but not in what is known of it, and its end is not taken back. -/
theorem changeProcess (w : World) (pid : Nat) {f : Process → Process} (pids : ∀ p, (f p).pid = p.pid)
    (seen : ∀ p, (f p).seen = p.seen)
    (exits : ∀ p code, w.process? pid = some p → p.exit = some code → (f p).exit = some code) :
    w.Overlooks (w.changeProcess pid f) where
  seen q := by
    rw [seen?, process?_changeProcess w pid q f pids, Option.map_map, seen?]
    congr 1
    funext p
    by_cases h : p.pid = pid <;> simp [h, seen]
  exits q code ended := by
    obtain ⟨p, found, gone⟩ := Option.map_eq_some_iff.mp ended
    rw [exit?, process?_changeProcess w pid q f pids, found, Option.map_some, Option.map_some]
    by_cases mine : p.pid = pid
    · have here : w.process? pid = some p := by rwa [← mine, pid_of_process? found]
      simp [mine, exits p code here gone]
    · simp [mine, gone]

/-- No process looks at another. -/
theorem acts (acts : w.Acts w' entries) : w.Overlooks w' := by
  cases acts with
  | begins pid => exact changeProcess w pid (fun _ => rfl) (fun _ => rfl) fun _ _ _ => id
  | reads found alive count => exact of_processes (same_of_consume w count _).1
  | writes found alive own delivered => exact of_processes (same_of_deliver? delivered).1
  | @ends pid p found alive code =>
    have ended : w.Overlooks (w.changeProcess pid fun p => { p with exit := some code }) := by
      refine changeProcess w pid (fun _ => rfl) (fun _ => rfl) fun q _ there gone => ?_
      cases there.symm.trans found
      simp [Process.alive, gone] at alive
    exact ended.trans (of_processes rfl)
  | rests t => exact of_processes rfl

theorem plays (plays : w.Plays w' entries) : w.Overlooks w' := by
  induction plays with
  | refl => exact refl w
  | tail _ acted ih => exact ih.trans (acts acted)

/-- A process that is there stays there. -/
theorem known (overlooks : w.Overlooks w') {pid : Nat} (known : (w.exit? pid).isSome) :
    (w'.exit? pid).isSome := by
  have there (v : World) : (v.exit? pid).isSome = (v.seen? pid).isSome := by simp [exit?, seen?]
  rw [there] at known ⊢
  rwa [overlooks.seen]

theorem allReaped (overlooks : w.Overlooks w') (reaped : w.AllReaped pids) : w'.AllReaped pids := by
  intro pid member
  obtain ⟨code, gone, seen⟩ := reaped pid member
  exact ⟨code, overlooks.exits pid code gone, (overlooks.seen pid).trans seen⟩

end Overlooks

end World

open World

variable {σ α : Type} {w₀ w w' : World}

/-! ## What processes cannot undo -/

namespace World

theorem reapers_consume (w : World) (count : Nat) (c : Channel) : (w.consume count c).reapers = w.reapers := by
  cases c <;> rfl

private theorem reapers_putFile (w : World) (name : Text) (b : Bytes) :
    (w.putFile name b).reapers = w.reapers := by
  unfold putFile
  split <;> rfl

theorem reapers_deliver? {c : Channel} {data : Bytes} (delivered : w.deliver? c data = some w') :
    w'.reapers = w.reapers := by
  unfold deliver? at delivered
  split at delivered
  · cases delivered
    rfl
  · cases c with
    | writeEnd q =>
      dsimp only at delivered
      split at delivered <;> cases delivered
      rfl
    | file k =>
      cases delivered
      unfold writeFile
      split
      · rfl
      · dsimp only
        split
        · rfl
        · exact reapers_putFile _ _ _
        · exact reapers_putFile _ _ _
    | _ =>
      cases delivered
      rfl

/-- What holds whatever processes do, and is about nothing but processes and reapers. -/
structure Steady (P : World → Prop) : Prop where
  plays : ∀ {w w' entries}, P w → w.Plays w' entries → P w'
  same : ∀ {w w'}, P w → w'.processes = w.processes → w'.reapers = w.reapers → P w'

theorem Overlooks.steady (w₀ : World) : Steady w₀.Overlooks where
  plays overlooks plays := overlooks.trans (.plays plays)
  same overlooks processes _ := overlooks.trans (.of_processes processes)

end World

namespace World.Steady

variable {P : World → Prop} (steady : Steady P)
include steady

/-- Something is taken out of a channel. -/
theorem consume (count : Nat) (c : Channel) (holds : P w) : P (w.consume count c) :=
  steady.same holds (same_of_consume w count c).1 (reapers_consume w count c)

/-- Something is written to a channel. -/
theorem deliver? {c : Channel} {data : Bytes} (delivered : w.deliver? c data = some w') (holds : P w) : P w' :=
  steady.same holds (same_of_deliver? delivered).1 (reapers_deliver? delivered)

/-! ## Steps of the system -/

theorem runUntil (condition : World → Bool) (limit : Option Time) : (runUntil condition limit).Preserves P := by
  intro w holds
  obtain ⟨_, _, _, ran, plays, -⟩ := Sim.exec_runUntil condition limit w
  rw [ran]
  exact steady.plays holds plays

theorem emit (e : Event) : (Pipework.emit e).Preserves P := fun _ holds => steady.same holds rfl rfl

theorem onMemory (f : Memory → Except Failure α × Memory) : (Pump.onMemory f).Preserves P := by
  intro w holds
  rw [Pump.exec_onMemory]
  exact steady.same holds rfl rfl

theorem close (descriptor : Nat) : (Sim.close descriptor).Preserves P := by
  refine .bind .get fun w => ?_
  split
  · exact .bind (fun _ holds => steady.same holds rfl rfl) fun _ => steady.emit _
  · exact .throw _

theorem readUpTo (r : Reader) (most : Int) : (r.readUpTo most).Preserves P :=
  Reader.preserves_readUpTo (fun _ _ _ plays holds => steady.plays holds plays)
    (fun _ _ _ count _ => steady.consume count _) most

theorem readAll (r : Reader) : r.readAll.Preserves P := by
  have all := steady.readUpTo r (-1)
  rwa [Reader.readUpTo, if_pos (by decide)] at all

theorem readLine (r : Reader) : r.readLine.Preserves P :=
  Reader.preserves_readLine (fun _ _ _ plays holds => steady.plays holds plays)
    fun _ _ _ count _ => steady.consume count _

omit steady in
/-- What an owner does is a step of the system for all others. -/
theorem runOn {m : Owning σ α} (keeps : m.Preserves fun _ => P) (s : σ) :
    (liftM (m.runOn s) : Sim (Except Failure α × σ)).Preserves P := keeps s

/-! ## Steps of an owner -/

theorem shutReader : Reader.close.Preserves fun _ => P := by
  refine .bind .own fun s => ?_
  split
  · exact .pure _
  · exact .bind (.change fun _ _ => id) fun _ => .lift fun _ => steady.close _

theorem closeReader (r : Reader) : (Pump.closeReader r).Preserves P :=
  .bind (runOn steady.shutReader r) fun _ => .ofExcept _

theorem passOn : Writer.passOn.Preserves fun _ => P := by
  intro r w holds
  obtain ⟨_, plays⟩ := settle_plays w
  by_cases empty : r.held = []
  · rwa [Writer.passOn_of_empty empty]
  · rw [Writer.passOn_of_held empty]
    cases delivered : w.settle.deliver? ((w.settle.channel? r.descriptor).getD .null) r.held with
    | none => exact steady.plays holds plays
    | some after => exact steady.deliver? delivered (steady.plays holds plays)

theorem closeWriter : Writer.close.Preserves fun _ => P := by
  refine .bind .own fun r => ?_
  split
  · exact .pure _
  · exact .bind steady.passOn.attempt fun _ => .bind (.lift fun _ => steady.close _) fun _ =>
      .bind (.change fun _ _ => id) fun _ => .lift fun _ => .ofExcept _

theorem drain (r : Reader) : (Pump.drain r).Preserves fun _ => P :=
  Pump.Drainable.drain (P := fun _ => P)
    { moves := fun _ _ _ _ => id
      stands := fun _ _ _ _ _ => id
      plays := fun _ _ _ _ plays holds => steady.plays holds plays
      aside := fun _ _ _ _ holds => steady.same holds rfl rfl
      joined := fun _ _ _ _ holds => steady.same holds rfl rfl
      take := fun _ _ _ _ count _ => steady.consume count _
      shut := fun _ _ holds => steady.same holds rfl rfl }

theorem feed (r : Writer) : (Pump.feed r).Preserves fun _ => P := by
  intro p w holds
  obtain ⟨memory, same⟩ := (Pump.Holding.feedAll (p, r) w).memory
  have fed : P (Pump.feedAll.exec (p, r) w).2.2 := by
    rw [same]
    exact steady.same holds rfl rfl
  rw [Pump.exec_feed rfl rfl]
  exact steady.closeWriter _ _ fed

/-- The thread of a pump, in whatever state the pump is. -/
theorem run : Pump.run.Preserves fun _ => P := by
  have moves : Pump.move.Preserves fun _ => P := by
    refine .bind .own fun p => .bind (.change fun _ _ => id) fun _ => ?_
    split
    · split
      · exact steady.drain _
      · exact .throw _
    · split
      · exact steady.feed _
      · exact .throw _
  intro p w holds
  obtain ⟨line, ran⟩ := Pump.exec_run p w
  rw [ran]
  exact steady.same (moves p w holds) rfl rfl

theorem start : Pump.start.Preserves fun _ => P := by
  refine .bind .own fun p => .bind (.lift fun _ => steady.emit _) fun _ => .bind (.change fun _ _ => id) fun _ => ?_
  split
  · exact .pure _
  · exact steady.run

theorem join (limit : Option Time) : (Pump.join limit).Preserves fun _ => P := by
  refine .bind .own fun p => ?_
  split
  · exact .pure _
  · exact .lift fun _ => steady.emit _
  · refine .bind (.lift fun _ => steady.emit _) fun _ =>
      .bind (.lift fun _ => steady.runUntil _ _) fun ended => ?_
    split
    · exact steady.run
    · exact .pure _

theorem joinBy (deadline : Option Time) : (Handle.joinBy deadline).Preserves fun _ => P :=
  .bind (.lift fun _ => .bind .get fun _ => .pure _) fun _ => steady.join _

omit steady in
theorem onPumps {step : Owning Pump Unit} (keeps : step.Preserves fun _ => P) (pumps : List Pump) :
    (liftM (Handle.onPumps step pumps) : Owning σ (Except Failure Unit × List Pump)).Preserves fun _ => P := by
  intro s w holds
  rw [Handle.exec_onPumps]
  induction pumps generalizing w with
  | nil => exact holds
  | cons p rest ih =>
    have stepped := keeps p w holds
    rw [Handle.run_onPumps_cons]
    generalize step.exec p w = result at stepped
    obtain ⟨outcome, p', w₁⟩ := result
    cases outcome with
    | error e => exact stepped
    | ok _ => exact ih w₁ stepped

omit steady in
theorem eachPump {step : Owning Pump Unit} (keeps : step.Preserves fun _ => P) :
    (Handle.eachPump step).Preserves fun _ => P :=
  .bind .own fun _ => .bind (onPumps keeps _) fun _ =>
    .bind (.change fun _ _ => id) fun _ => .lift fun _ => .ofExcept _

theorem say (level : Level) (text : Text) : (Handle.say level text).Preserves fun _ => P :=
  .bind .own fun _ => .lift fun _ _ holds => steady.same holds rfl rfl

/-- Closing an end of a handle. -/
theorem closeEndpoint (s : Stream) : (Handle.closeEndpoint s).Preserves fun _ => P := by
  have dropped : (Handle.dropEndpoint s).Preserves fun _ => P := by
    cases s with
    | stdin =>
      refine .bind .own fun h => .bind (.change fun _ _ => id) fun _ => ?_
      split
      · exact .pure _
      · exact .bind (.lift fun _ => runOn steady.closeWriter _) fun _ => .lift fun _ => .ofExcept _
    | stdout | stderr =>
      refine .bind .own fun h => .bind (.change fun _ _ => id) fun _ => ?_
      split
      · exact .pure _
      · exact .lift fun _ => steady.closeReader _
  refine .bind dropped.attempt fun outcome => ?_
  split
  · exact .pure _
  · split
    on_goal 1 => refine .bind (.throw _) fun _ => ?_
    all_goals
      refine .bind .own fun h => ?_
      split <;> exact .bind (steady.say _ _) fun _ => .pure _

end World.Steady

/-! ## Steps that look at none -/

/-- A step of the system in which nobody looks at a process. -/
abbrev Sim.Unwatched (w₀ : World) (m : Sim α) : Prop := m.Preserves w₀.Overlooks

/-- A step with a state of its own in which nobody looks at a process. -/
abbrev Owning.Unwatched (w₀ : World) (m : Owning σ α) : Prop := m.Preserves fun _ => w₀.Overlooks

end Pipework
