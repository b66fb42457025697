import Pipework.Proofs.System.Pipes
import Pipework.Proofs.System.Stillness

/-!
# Two systems that differ in what has been read

Somebody reads from a pipe that no process reads. Whether it does so early or late is nothing to the processes:
of two systems that are the same but for some bytes at the front of that pipe (`World.Ahead`) the same
processes run, with the same result, so that they are the same in this sense for ever. The trace and the order
in which descriptors were given up do not count either.

To wait for the end of a pipe one may stop on the way, as often as one likes, and go on from there
(`Sim.exec_runUntil_resume`).
-/

namespace Pipework

namespace World

/-- The same system in which some more bytes are gone from a pipe, with another past. -/
def ahead (w : World) (pipe n : Nat) (trace : List Event) (retired : List (Nat × Channel)) : World :=
  { w with pipes := w.pipes.modify pipe (·.drop n), trace, retired }

/-- One system is ahead of another by some bytes that somebody has taken out of a pipe, which no process reads
unless these are none. -/
structure Ahead (pipe n : Nat) (w w' : World) : Prop where
  same : w' = w.ahead pipe n w'.trace w'.retired
  there : n ≤ (w.content pipe).length
  alone : n = 0 ∨ ∀ p ∈ w.processes, p.holds (.readEnd pipe) = 0
  retired : ∀ d, w'.retired.find? (·.1 == d) = w.retired.find? (·.1 == d)

variable {w w' : World} {pipe n : Nat} {trace : List Event} {retired : List (Nat × Channel)}
variable {c : Channel} {p : Process} {entries : List (Nat × Bytes)}

theorem ahead_zero (w : World) (pipe : Nat) (trace : List Event) (retired : List (Nat × Channel)) :
    w.ahead pipe 0 trace retired = { w with trace, retired } := by
  have same : w.pipes.modify pipe (·.drop 0) = w.pipes := by
    refine List.ext_getElem? fun i => ?_
    rw [List.getElem?_modify]
    simp
  rw [ahead, same]

/-! ## One step -/

theorem content_ahead (w : World) (pipe n q : Nat) (trace : List Event) (retired : List (Nat × Channel)) :
    (w.ahead pipe n trace retired).content q = if q = pipe then (w.content q).drop n else w.content q := by
  unfold content ahead
  rw [List.getD_eq_getElem?_getD, List.getD_eq_getElem?_getD, List.getElem?_modify]
  by_cases same : q = pipe
  · subst same
    cases w.pipes[q]? <;> simp
  · simp [same, Ne.symm same]

private theorem available_ahead (apart : n = 0 ∨ c ≠ .readEnd pipe) :
    (w.ahead pipe n trace retired).available c = w.available c := by
  cases c with
  | readEnd q =>
    change (w.ahead pipe n trace retired).content q = w.content q
    rw [content_ahead]
    rcases apart with rfl | apart
    · simp
    · rw [if_neg fun same => apart (by rw [same])]
  | _ => rfl

private theorem setContent_ahead {q : Nat} {b b' : Bytes} (same : b' = if q = pipe then b.drop n else b) :
    (w.ahead pipe n trace retired).setContent q b' = (w.setContent q b).ahead pipe n trace retired := by
  have pipes : (w.pipes.modify pipe (·.drop n)).set q b' = (w.pipes.set q b).modify pipe (·.drop n) := by
    refine List.ext_getElem? fun i => ?_
    simp only [List.getElem?_set, List.getElem?_modify, List.length_modify, same]
    by_cases mine : q = i
    · subst mine
      by_cases known : q < w.pipes.length
      · by_cases target : pipe = q
        · simp [known, target]
        · simp [known, target, Ne.symm target]
      · simp [known]
    · simp [mine]
  unfold setContent ahead
  dsimp only
  rw [pipes]

theorem consume_ahead (count : Nat) (apart : n = 0 ∨ c ≠ .readEnd pipe) :
    (w.ahead pipe n trace retired).consume count c = (w.consume count c).ahead pipe n trace retired := by
  cases c with
  | readEnd q =>
    refine setContent_ahead ?_
    rw [content_ahead]
    rcases apart with rfl | apart
    · simp
    · rw [if_neg fun same => apart (by rw [same]), if_neg fun same => apart (by rw [same])]
  | _ => rfl

private theorem putFile_ahead (name : Text) (b : Bytes) :
    (w.ahead pipe n trace retired).putFile name b = (w.putFile name b).ahead pipe n trace retired := by
  unfold putFile ahead
  by_cases found : w.files.any (·.1 == name) = true
  · simp only [if_pos found]
  · simp only [if_neg found]

private theorem writeFile_ahead (k : Nat) (data : Bytes) :
    (w.ahead pipe n trace retired).writeFile k data = (w.writeFile k data).ahead pipe n trace retired := by
  have same : (w.ahead pipe n trace retired).openings = w.openings := rfl
  unfold writeFile
  rw [same]
  cases w.openings[k]? with
  | none => rfl
  | some o =>
    dsimp only
    cases o.mode with
    | read => rfl
    | append => exact putFile_ahead _ _
    | write =>
      dsimp only
      rw [putFile_ahead]
      rfl

private theorem changeProcess_ahead (pid : Nat) (f : Process → Process) :
    (w.ahead pipe n trace retired).changeProcess pid f
      = (w.changeProcess pid f).ahead pipe n trace retired := rfl

theorem deliver?_ahead (data : Bytes) (there : n ≤ (w.content pipe).length) :
    (w.ahead pipe n trace retired).deliver? c data
      = (w.deliver? c data).map fun v => v.ahead pipe n trace retired := by
  unfold deliver?
  split
  · rfl
  · cases c with
    | writeEnd q =>
      dsimp only
      change (if w.hasReader q then _ else _) = _
      split
      · refine congrArg some (setContent_ahead ?_)
        rw [content_ahead]
        split
        · next same =>
          subst same
          rw [List.drop_append_of_le_length there]
        · rfl
      · rfl
    | file k => exact congrArg some (writeFile_ahead k data)
    | _ => rfl

private theorem content_consume (count : Nat) (apart : c ≠ .readEnd pipe) :
    (w.consume count c).content pipe = w.content pipe := by
  cases c with
  | readEnd q => exact content_setContent_other _ _ fun same => apart (by rw [same])
  | _ => rfl

private theorem content_deliver? {data : Bytes} (delivered : w.deliver? c data = some w')
    (there : n ≤ (w.content pipe).length) : n ≤ (w'.content pipe).length := by
  by_cases known : pipe < w.pipes.length
  · rw [(gains_deliver? delivered).content known, List.length_append]
    omega
  · have none : w.content pipe = [] := by simp [content, known]
    rw [none] at there
    exact Nat.le_trans there (Nat.zero_le _)

/-- A process that runs does not notice the difference. -/
theorem runProcess_ahead (there : n ≤ (w.content pipe).length) (apart : n = 0 ∨ p.stdin ≠ .readEnd pipe) :
    ∃ later, (w.ahead pipe n trace retired).runProcess p = (w.runProcess p).ahead pipe n later retired := by
  unfold runProcess
  dsimp only
  rw [available_ahead apart, consume_ahead _ apart]
  have still : n ≤ ((w.consume (intake p (w.available p.stdin)) p.stdin).content pipe).length := by
    rcases apart with rfl | apart
    · exact Nat.zero_le _
    · rwa [content_consume _ apart]
  generalize w.consume (intake p (w.available p.stdin)) p.stdin = w₁ at still
  rw [changeProcess_ahead]
  generalize begun : w₁.changeProcess p.pid (fun q => { q with hasRun := true }) = w₂
  have still : n ≤ (w₂.content pipe).length := begun ▸ still
  rw [deliver?_ahead _ still]
  cases out : w₂.deliver? p.stdout (p.program.out.map (·.render p ((w.available p.stdin).take
      (intake p (w.available p.stdin))))).flatten with
  | none => exact ⟨_, rfl⟩
  | some w₃ =>
    dsimp only [Option.map_some]
    rw [deliver?_ahead _ (content_deliver? out still)]
    cases w₃.deliver? p.stderr (p.program.err.map (·.render p ((w.available p.stdin).take
        (intake p (w.available p.stdin))))).flatten with
    | none => exact ⟨_, rfl⟩
    | some w₄ =>
      dsimp only [Option.map_some]
      split
      · exact ⟨_, rfl⟩
      · exact ⟨_, rfl⟩

/-! ## Running -/

namespace Ahead

variable {v v' : World} {condition condition' : World → Bool}

/-- When the same processes have acted, the distance is still the same. -/
theorem plays (ahead : w.Ahead pipe n w') (plays : w.Plays v entries)
    (same : v' = v.ahead pipe n v'.trace w'.retired) : v.Ahead pipe n v' := by
  obtain ⟨_, passes, -⟩ := plays.runs
  have retired : v'.retired = w'.retired := by rw [same]; rfl
  refine ⟨by rwa [retired], ?_, ?_, ?_⟩
  · rcases ahead.alone with rfl | noReader
    · exact Nat.zero_le _
    · by_cases known : pipe < w.pipes.length
      · rw [(plays.gains_entries noReader).content known, List.length_append]
        exact Nat.le_add_right_of_le ahead.there
      · have none : w.content pipe = [] := by simp [content, known]
        have nothing := ahead.there
        rw [none] at nothing
        exact Nat.le_trans nothing (Nat.zero_le _)
  · refine ahead.alone.imp_right fun noReader p member => ?_
    obtain ⟨q, known, fewer⟩ := plays.gains_entries noReader |>.processes p member
    exact Nat.eq_zero_of_le_zero (noReader q known ▸ fewer _)
  · rw [retired, passes.retired]
    exact ahead.retired

theorem process? (ahead : w.Ahead pipe n w') (pid : Nat) : w'.process? pid = w.process? pid := by
  rw [ahead.same]
  rfl

/-- A process that waits to run does not read the pipe. -/
private theorem apart (ahead : w.Ahead pipe n w') (member : p ∈ w.processes) (waits : p.waiting) :
    n = 0 ∨ p.stdin ≠ .readEnd pipe := by
  refine ahead.alone.imp_right fun noReader same => ?_
  rw [Process.waiting, Bool.and_eq_true] at waits
  exact Process.holds_ne_zero waits.1 (by simp [same]) (noReader p member)

private theorem runnable (ahead : w.Ahead pipe n w') (member : p ∈ w.processes) :
    w'.runnable p = w.runnable p := by
  unfold World.runnable
  by_cases waits : p.waiting
  · rw [ahead.same, available_ahead (ahead.apart member waits)]
    rfl
  · simp [waits]

theorem walk (ahead : w.Ahead pipe n w') (pids : List Nat) :
    (w'.walk pids).2 = (w.walk pids).2 ∧ (w.walk pids).1.Ahead pipe n (w'.walk pids).1 := by
  induction pids generalizing w w' with
  | nil => exact ⟨rfl, ahead⟩
  | cons pid rest ih =>
    unfold World.walk
    rw [ahead.process?]
    cases found : w.process? pid with
    | none => exact ih ahead
    | some p =>
      have member := List.mem_of_find?_eq_some found
      dsimp only
      rw [ahead.runnable member]
      split
      · next ready =>
        simp only [World.runnable, Bool.and_eq_true] at ready
        have waits := ready.1.1
        have alive : p.alive = true := by
          rw [Process.waiting, Bool.and_eq_true] at waits
          exact waits.1
        obtain ⟨_, plays⟩ := runProcess_plays found alive
        obtain ⟨later, same⟩ : ∃ later, (w.ahead pipe n w'.trace w'.retired).runProcess p
            = (w.runProcess p).ahead pipe n later w'.retired :=
          runProcess_ahead ahead.there (ahead.apart member waits)
        rw [← ahead.same] at same
        exact ⟨rfl, (ih (ahead.plays plays (by rw [same]; rfl))).2⟩
      · exact ih ahead

theorem settle (ahead : w.Ahead pipe n w') : w.settle.Ahead pipe n w'.settle := by
  have within (walks : Nat) {w w' : World} (ahead : w.Ahead pipe n w') :
      (settleWithin walks w).Ahead pipe n (settleWithin walks w') := by
    induction walks generalizing w w' with
    | zero => exact ahead
    | succ walks ih =>
      have processes : w'.processes = w.processes := by rw [ahead.same]; rfl
      obtain ⟨same, walked⟩ := ahead.walk (w.processes.map (·.pid))
      unfold settleWithin
      dsimp only
      rw [processes, same]
      split
      · exact ih walked
      · exact walked
  unfold World.settle
  have processes : w'.processes = w.processes := by rw [ahead.same]; rfl
  rw [processes]
  exact within _ ahead

theorem futureStarts (ahead : w.Ahead pipe n w') : w'.futureStarts = w.futureStarts := by
  rw [ahead.same]
  rfl

private theorem rests (ahead : w.Ahead pipe n w') (t : Time) :
    Ahead pipe n { w with clock := t } { w' with clock := t } where
  same := by
    have same := ahead.same
    generalize w'.trace = trace at same
    generalize w'.retired = retired at same
    subst same
    rfl
  there := ahead.there
  alone := ahead.alone
  retired := ahead.retired

/-- To wait until a condition holds takes both to the same point, if the condition is the same. -/
theorem runUntilWithin (ahead : w.Ahead pipe n w')
    (same : ∀ v v', v.Ahead pipe n v' → condition' v' = condition v) (deadline : Option Time) (moves : Nat) :
    (runUntilWithin condition' deadline moves w').1 = (runUntilWithin condition deadline moves w).1 ∧
      (runUntilWithin condition deadline moves w).2.Ahead pipe n
        (runUntilWithin condition' deadline moves w').2 := by
  induction moves generalizing w w' with
  | zero => exact ⟨rfl, ahead⟩
  | succ moves ih =>
    have settled := ahead.settle
    unfold World.runUntilWithin
    dsimp only
    rw [same _ _ settled, settled.futureStarts]
    split
    · exact ⟨rfl, settled⟩
    · split
      · exact ⟨rfl, settled⟩
      · exact ⟨rfl, settled.rests _⟩
      · split
        · exact ⟨rfl, settled.rests _⟩
        · exact ih (settled.rests _)
      · exact ih (settled.rests _)

end Ahead

/-! ## Stopping on the way -/

theorem runUntilWithin_any {condition : World → Bool} {deadline : Option Time} {moves more : Nat}
    (enough : w.futureStarts.length < moves) (enough' : w.futureStarts.length < more) :
    runUntilWithin condition deadline more w = runUntilWithin condition deadline moves w := by
  rcases Nat.le_total moves more with larger | larger
  · exact runUntilWithin_stable condition deadline enough larger
  · exact (runUntilWithin_stable condition deadline enough' larger).symm

private theorem runUntilWithin_succ (condition : World → Bool) (moves : Nat) (w : World) :
    runUntilWithin condition none (moves + 1) w =
      if condition w.settle = true then (.ok true, w.settle)
      else match w.settle.futureStarts.min? with
        | none => (.error .deadlock, w.settle)
        | some start => runUntilWithin condition none moves { w.settle with clock := start } := by
  conv => lhs; unfold runUntilWithin
  dsimp only
  split
  · rfl
  · cases w.settle.futureStarts.min? <;> rfl

private theorem runUntilWithin_settle (condition : World → Bool) (moves : Nat) (w : World) :
    runUntilWithin condition none (moves + 1) w.settle = runUntilWithin condition none (moves + 1) w := by
  rw [runUntilWithin_succ, runUntilWithin_succ, settle_settle]

/-- Who waits for something that comes earlier can go on from there. -/
theorem runUntilWithin_resume {condition earlier : World → Bool}
    (weaker : ∀ v, condition v = true → earlier v = true) {moves : Nat} (enough : w.futureStarts.length < moves) :
    ∃ v, runUntilWithin earlier none moves w = (.ok true, v) ∧ v.settle = v ∧
        (∀ more, v.futureStarts.length < more →
          runUntilWithin condition none more v = runUntilWithin condition none moves w) ∨
      runUntilWithin earlier none moves w = (.error .deadlock, v) ∧
        runUntilWithin condition none moves w = (.error .deadlock, v) := by
  induction moves generalizing w with
  | zero => cases enough
  | succ moves ih =>
    have fewer := w.settle_advances.futureStarts.length_le
    by_cases early : earlier w.settle = true
    · refine ⟨w.settle, .inl ⟨?_, settle_settle w, fun more enough' => ?_⟩⟩
      · rw [runUntilWithin_succ, if_pos early]
      · rw [← runUntilWithin_settle condition moves w]
        exact runUntilWithin_any (by omega) enough'
    · have late : ¬ condition w.settle = true := fun holds => early (weaker _ holds)
      rw [runUntilWithin_succ earlier, runUntilWithin_succ condition moves w, if_neg early, if_neg late]
      cases next : w.settle.futureStarts.min? with
      | none => exact ⟨w.settle, .inr ⟨rfl, rfl⟩⟩
      | some start =>
        have less := futureStarts_of_start next
        dsimp only
        exact ih (Nat.lt_of_lt_of_le less (by omega))

end World

namespace Sim

variable {w w' : World} {pipe n : Nat} {condition condition' : World → Bool}

theorem exec_runUntil_eq (condition : World → Bool) (limit : Option Time) (w : World) :
    (runUntil condition limit).exec w =
      World.runUntilWithin condition (limit.map (w.clock + ·)) (w.countWaiting + 1) w := by
  simp only [runUntil, exec_bind, exec_world, exec_setWorld, exec_ofExcept]
  rfl

theorem exec_runUntil_ahead (ahead : w.Ahead pipe n w')
    (same : ∀ v v', v.Ahead pipe n v' → condition' v' = condition v) (limit : Option Time) :
    ((runUntil condition' limit).exec w').1 = ((runUntil condition limit).exec w).1 ∧
      ((runUntil condition limit).exec w).2.Ahead pipe n ((runUntil condition' limit).exec w').2 := by
  have clock : w'.clock = w.clock := by rw [ahead.same]; rfl
  have waiting : w'.countWaiting = w.countWaiting := by rw [ahead.same]; rfl
  rw [exec_runUntil_eq, exec_runUntil_eq, clock, waiting]
  exact ahead.runUntilWithin same _ _

/-- Who waits for something may stop at something that comes earlier, and go on from there. -/
theorem exec_runUntil_resume {earlier : World → Bool} (weaker : ∀ v, condition v = true → earlier v = true)
    (w : World) : ∃ v,
    (runUntil earlier none).exec w = (.ok true, v) ∧ earlier v = true ∧ v.settle = v ∧
        (runUntil condition none).exec v = (runUntil condition none).exec w ∨
      (runUntil earlier none).exec w = (.error .deadlock, v) ∧
        (runUntil condition none).exec w = (.error .deadlock, v) := by
  have holds := (World.runUntilWithin_plays earlier none (w.countWaiting + 1) w).2
  simp only [exec_runUntil_eq, Option.map_none]
  obtain ⟨v, ⟨stops, settled, rest⟩ | stuck⟩ :=
    World.runUntilWithin_resume weaker (Nat.lt_succ_of_le w.futureStarts_le)
  · rw [stops] at holds
    exact ⟨v, .inl ⟨stops, holds rfl, settled, rest _ (Nat.lt_succ_of_le v.futureStarts_le)⟩⟩
  · exact ⟨v, .inr stuck⟩

end Sim

end Pipework
