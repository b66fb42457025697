import Pipework.Proofs.System.Processes
import Pipework.Proofs.System.Stillness

/-!
# What the starter of a process has seen

What the starter of a process knows of it, and what the trace tells, is nothing to the processes. A system and the
same system in which nothing was seen and nothing traced (`World.unseen`) run the same processes with the same
result. To look at a process on the way, or to begin to wait for it, therefore changes nothing in what will be.
-/

namespace Pipework

namespace Process

/-- A process of which its starter has seen nothing. -/
def unseen (p : Process) : Process := { p with seen := none }

variable (p : Process)

@[simp] theorem unseen_pid : p.unseen.pid = p.pid := rfl
@[simp] theorem unseen_program : p.unseen.program = p.program := rfl
@[simp] theorem unseen_stdin : p.unseen.stdin = p.stdin := rfl
@[simp] theorem unseen_stdout : p.unseen.stdout = p.stdout := rfl
@[simp] theorem unseen_stderr : p.unseen.stderr = p.stderr := rfl
@[simp] theorem unseen_waiting : p.unseen.waiting = p.waiting := rfl
@[simp] theorem unseen_readyAt : p.unseen.readyAt = p.readyAt := rfl

@[simp] theorem render_unseen (part : Part) (input : Bytes) : part.render p.unseen input = part.render p input := by
  cases part <;> rfl

@[simp] theorem intake_unseen (there : Bytes) : World.intake p.unseen there = World.intake p there := rfl

end Process

namespace World

/-- The same system, in which nothing was seen and nothing traced. -/
def unseen (w : World) : World := { w with processes := w.processes.map Process.unseen, trace := [] }

variable {w w' : World} {p : Process} {pid : Nat} {c : Channel} {data : Bytes} {condition : World → Bool}

theorem process?_unseen (w : World) (pid : Nat) : w.unseen.process? pid = (w.process? pid).map Process.unseen :=
  List.find?_map ..

theorem exit?_unseen (w : World) (pid : Nat) : w.unseen.exit? pid = w.exit? pid := by
  rw [exit?, process?_unseen, Option.map_map]
  rfl

@[simp] theorem unseen_unseen (w : World) : w.unseen.unseen = w.unseen := by
  simp [unseen, Process.unseen, Function.comp_def]

@[simp] theorem unseen_emit (w : World) (e : Event) : (w.emit e).unseen = w.unseen := rfl

/-- A change of a process that does not depend on what was seen of it. -/
private theorem unseen_changeProcess (w : World) (pid : Nat) {f g : Process → Process}
    (same : ∀ p, (f p).unseen = g p.unseen) : (w.changeProcess pid f).unseen = w.unseen.changeProcess pid g := by
  unfold changeProcess unseen
  simp only [List.map_map]
  congr 1
  refine List.map_congr_left fun p _ => ?_
  by_cases mine : p.pid = pid
  · simpa [mine, Process.unseen] using same p
  · simp [mine, Process.unseen]

/-- To look at a process changes only what was seen. -/
@[simp] theorem unseen_notice (w : World) (pid : Nat) : (w.notice pid).unseen = w.unseen := by
  rw [notice, unseen_changeProcess w pid (f := fun p => { p with seen := p.exit }) (g := id) fun _ => rfl]
  simp [changeProcess]

private theorem holders_unseen (w : World) (c : Channel) : w.unseen.holders c = w.holders c := by
  simp only [holders, unseen, List.map_map]
  rfl

private theorem unseen_consume (w : World) (count : Nat) (c : Channel) :
    (w.consume count c).unseen = w.unseen.consume count c := by cases c <;> rfl

private theorem available_unseen (w : World) (c : Channel) : w.unseen.available c = w.available c := by
  cases c <;> rfl

private theorem unseen_putFile (w : World) (name : Text) (b : Bytes) :
    (w.putFile name b).unseen = w.unseen.putFile name b := by
  have same : w.unseen.files = w.files := rfl
  unfold putFile
  rw [same]
  split <;> rfl

private theorem unseen_writeFile (w : World) (k : Nat) (data : Bytes) :
    (w.writeFile k data).unseen = w.unseen.writeFile k data := by
  have same : w.unseen.openings = w.openings := rfl
  unfold writeFile
  rw [same]
  cases w.openings[k]? with
  | none => rfl
  | some o =>
    dsimp only
    cases o.mode with
    | read => rfl
    | append => exact unseen_putFile w _ _
    | write =>
      dsimp only
      rw [← unseen_putFile]
      rfl

private theorem deliver?_unseen (w : World) (c : Channel) (data : Bytes) :
    w.unseen.deliver? c data = (w.deliver? c data).map unseen := by
  unfold deliver?
  split
  · rfl
  · cases c with
    | writeEnd pipe =>
      dsimp only
      rw [hasReader, holders_unseen, ← hasReader]
      split <;> rfl
    | file k => exact congrArg some (unseen_writeFile w k data).symm
    | _ => rfl

private theorem unseen_endProcess (w : World) (pid : Nat) (code : Int) :
    (w.unseen.endProcess pid code).unseen = (w.endProcess pid code).unseen := by
  unfold endProcess
  rw [unseen_emit, unseen_emit, unseen_changeProcess w pid (g := fun p => { p with exit := some code }) fun _ => rfl,
    unseen_changeProcess w.unseen pid (g := fun p => { p with exit := some code }) fun _ => rfl, unseen_unseen]

/-- A process that runs does not notice. -/
private theorem unseen_runProcess (w : World) (p : Process) :
    (w.unseen.runProcess p.unseen).unseen = (w.runProcess p).unseen := by
  unfold runProcess
  simp only [Process.unseen_stdin, Process.unseen_stdout, Process.unseen_stderr, Process.unseen_pid,
    Process.unseen_program, Process.intake_unseen, Process.render_unseen, available_unseen, ← unseen_consume]
  rw [← unseen_changeProcess _ _ (f := fun q => { q with hasRun := true }) fun _ => rfl, deliver?_unseen]
  cases World.deliver? _ p.stdout _ with
  | none => exact unseen_endProcess _ _ _
  | some w₁ =>
    dsimp only [Option.map_some]
    rw [deliver?_unseen]
    cases w₁.deliver? p.stderr _ with
    | none => exact unseen_endProcess _ _ _
    | some w₂ =>
      dsimp only [Option.map_some]
      change (if p.program.hangs = true then w₂.unseen else _).unseen = _
      by_cases hangs : p.program.hangs = true
      · rw [if_pos hangs, if_pos hangs, unseen_unseen]
      · rw [if_neg hangs, if_neg hangs]
        exact unseen_endProcess _ _ _

private theorem runnable_unseen (w : World) (p : Process) : w.unseen.runnable p.unseen = w.runnable p := by
  unfold runnable
  simp only [Process.unseen_stdin, Process.unseen_program, Process.unseen_waiting, Process.unseen_readyAt,
    available_unseen]
  have atEnd : w.unseen.atEnd p.stdin = w.atEnd p.stdin := by
    cases p.stdin <;> simp only [World.atEnd, hasWriter, holders_unseen]
  rw [atEnd]
  rfl

/-- Two systems that are the same but for what was seen stay so in a walk, and it runs something in both or in
neither. -/
private theorem walk_unseen (pids : List Nat) : ∀ {w w' : World}, w'.unseen = w.unseen →
    (w'.walk pids).1.unseen = (w.walk pids).1.unseen ∧ (w'.walk pids).2 = (w.walk pids).2 := by
  induction pids with
  | nil => exact fun same => ⟨same, rfl⟩
  | cons pid rest ih =>
    intro w w' same
    have found : w'.unseen.process? pid = w.unseen.process? pid := by rw [same]
    rw [process?_unseen, process?_unseen] at found
    unfold walk
    cases here : w.process? pid with
    | none =>
      rw [here, Option.map_none, Option.map_eq_none_iff] at found
      rw [found]
      exact ih same
    | some p =>
      rw [here, Option.map_some, Option.map_eq_some_iff] at found
      obtain ⟨q, there, alike⟩ := found
      rw [there]
      have ready : w'.runnable q = w.runnable p := by rw [← runnable_unseen, same, alike, runnable_unseen]
      dsimp only
      rw [ready]
      split
      · refine ⟨(ih ?_).1, rfl⟩
        rw [← unseen_runProcess, ← unseen_runProcess w, same, alike]
      · exact ih same

private theorem pids_unseen (w : World) : w.unseen.processes.map (·.pid) = w.processes.map (·.pid) := by
  rw [unseen, List.map_map]
  rfl

theorem countWaiting_unseen (w : World) : w.unseen.countWaiting = w.countWaiting := by
  simp only [countWaiting, unseen, List.countP_map]
  rfl

theorem settle_unseen (same : w'.unseen = w.unseen) : w'.settle.unseen = w.settle.unseen := by
  have within (walks : Nat) : ∀ {w w' : World}, w'.unseen = w.unseen →
      (settleWithin walks w').unseen = (settleWithin walks w).unseen := by
    induction walks with
    | zero => exact id
    | succ walks ih =>
      intro w w' same
      have pids : w'.processes.map (·.pid) = w.processes.map (·.pid) := by
        rw [← pids_unseen w', same, pids_unseen]
      obtain ⟨walked, progress⟩ := walk_unseen (w.processes.map (·.pid)) same
      unfold settleWithin
      dsimp only
      rw [pids, progress]
      split
      · exact ih walked
      · exact walked
  have walks : w'.countWaiting = w.countWaiting := by rw [← countWaiting_unseen w', same, countWaiting_unseen]
  unfold settle
  rw [← countWaiting, ← countWaiting, walks]
  exact within _ same

theorem futureStarts_unseen (w : World) : w.unseen.futureStarts = w.futureStarts := by
  simp only [futureStarts, unseen, List.filter_map, List.map_map]
  rfl

/-- Waiting takes both to the same point, if the condition is the same. -/
theorem runUntilWithin_unseen (blind : ∀ w, condition w.unseen = condition w) (deadline : Option Time) (moves : Nat) :
    ∀ {w w' : World}, w'.unseen = w.unseen →
      (runUntilWithin condition deadline moves w').1 = (runUntilWithin condition deadline moves w).1 ∧
        (runUntilWithin condition deadline moves w').2.unseen =
          (runUntilWithin condition deadline moves w).2.unseen := by
  induction moves with
  | zero => exact fun same => ⟨rfl, same⟩
  | succ moves ih =>
    intro w w' same
    have settled := settle_unseen same
    have rests (t : Time) : ({ w'.settle with clock := t } : World).unseen = { w.settle with clock := t }.unseen :=
      congrArg (fun v : World => { v with clock := t }) settled
    unfold runUntilWithin
    dsimp only
    rw [← blind w'.settle, ← futureStarts_unseen w'.settle, settled, blind, futureStarts_unseen]
    split
    · exact ⟨rfl, settled⟩
    · split
      · exact ⟨rfl, settled⟩
      · exact ⟨rfl, rests _⟩
      · split
        · exact ⟨rfl, rests _⟩
        · exact ih (rests _)
      · exact ih (rests _)

end World

end Pipework
