import Pipework.Proofs.System.Acts

/-!
# Watching and ending processes

What `poll`, `kill` and `wait` do, as far as the trace and the ends of processes go: looking at a
process shows how it stands now, killing a living process ends it at once, and waiting for a process
that has ended returns and makes its end known.
-/

namespace Pipework

namespace World

/-- The system when the starter of a process has taken notice of how it stands. -/
def notice (w : World) (pid : Nat) : World := w.changeProcess pid fun p => { p with seen := p.exit }

theorem notice_passes (w : World) (pid : Nat) : w.Passes (w.notice pid) [] :=
  passes_changeProcess w pid _ (fun _ => rfl) (fun _ => rfl) fun _ => .inr rfl

theorem exit?_notice (w : World) (pid q : Nat) : (w.notice pid).exit? q = w.exit? q := by
  rcases (notice_passes w pid).exits q with ⟨same, _⟩ | ⟨_, _, _, one⟩
  · exact same
  · cases one

theorem seen?_notice (w : World) (pid : Nat) : (w.notice pid).seen? pid = w.exit? pid := by
  have change := process?_changeProcess w pid pid (fun p => { p with seen := p.exit }) fun _ => rfl
  rw [seen?, notice, change, Option.map_map, exit?]
  cases found : w.process? pid with
  | none => rfl
  | some p => simp [pid_of_process? found]

theorem hasEnded_of_exit? {w : World} {pid : Nat} {code : Int}
    (ended : w.exit? pid = some (some code)) :
    Sim.hasEnded pid w = true := by
  rw [exit?, Option.map_eq_some_iff] at ended
  obtain ⟨p, found, ended⟩ := ended
  simp [Sim.hasEnded, found, Process.alive, ended]

theorem not_hasEnded_of_exit? {w : World} {pid : Nat} (alive : w.exit? pid = some none) :
    Sim.hasEnded pid w = false := by
  rw [exit?, Option.map_eq_some_iff] at alive
  obtain ⟨p, found, alive⟩ := alive
  simp [Sim.hasEnded, found, Process.alive, alive]

end World

namespace Sim

open World

@[simp] theorem exec_settle (w : World) : settle.exec w = (.ok (), w.settle) := rfl

@[simp] theorem exec_seenCode (pid : Nat) (w : World) :
    (seenCode pid).exec w = (.ok (w.seen? pid).join, w) := by
  simp only [seenCode, exec_bind, exec_get, exec_pure, World.seen?]
  cases w.process? pid <;> rfl

@[simp] theorem exec_look (pid : Nat) (w : World) :
    (look pid).exec w = (.ok (w.exit? pid).join, w.notice pid) := by
  have noticed : w.changeProcess pid (fun p => { p with seen := p.exit }) = w.notice pid := rfl
  simp only [look, exec_bind, exec_modify, exec_seenCode, noticed, seen?_notice]

@[simp] theorem exec_poll (pid : Nat) (w : World) :
    (poll pid).exec w = (.ok (w.settle.exit? pid).join, w.settle.notice pid) := by
  simp only [poll, exec_bind, exec_settle, exec_look]

/-- Killing a living process ends it at once. -/
theorem exec_kill_of_alive {w : World} {pid : Nat} (alive : w.exit? pid = some none) :
    (kill pid).exec w
      = (.ok (), (w.emit (.killed pid)).endProcess pid (signalCode Signal.kill)) := by
  have living : hasEnded pid (w.emit (.killed pid)) = false := not_hasEnded_of_exit? alive
  simp only [kill, endNow, exec_bind, exec_emit, exec_modify, living]
  rfl

theorem kill_passes {w : World} {pid : Nat} (alive : w.exit? pid = some none) :
    w.Passes ((kill pid).exec w).2 [.killed pid, .exited pid (signalCode Signal.kill)] := by
  rw [exec_kill_of_alive alive]
  exact (passes_emit w (.killed pid) rfl fun _ => rfl).trans (passes_endProcess _ pid _ alive)

/-- A process that is killed has ended. -/
theorem exit?_of_kill {w : World} {pid : Nat} (alive : w.exit? pid = some none) :
    ∃ code, ((kill pid).exec w).2.exit? pid = some (some code) := by
  rcases (kill_passes alive).exits pid with ⟨-, none⟩ | ⟨-, code, ended, -⟩
  · simp [codesIn, Event.codeOf?] at none
  · exact ⟨code, ended⟩

/-- A living process that is asked to end does so at once, or does not care. -/
theorem exec_terminate_of_alive {w : World} {pid : Nat} (alive : w.exit? pid = some none) :
    ∃ w' events, (terminate pid).exec w = (.ok (), w') ∧ w.Passes w' (.terminated pid :: events) ∧
      (∀ e ∈ events, e.isExit) ∧ w'.clock = w.clock := by
  have asked := passes_emit w (.terminated pid) rfl fun _ => rfl
  have living : (w.emit (.terminated pid)).exit? pid = some none := alive
  obtain ⟨p, found, -⟩ := Option.map_eq_some_iff.mp living
  by_cases traps : p.program.trapsTerminate
  · exact ⟨_, [], by simp [terminate, exec_bind, found, traps], asked, nofun, rfl⟩
  · refine ⟨(w.emit (.terminated pid)).endProcess pid (signalCode Signal.terminate),
      [.exited pid (signalCode Signal.terminate)], ?_, asked.trans (passes_endProcess _ pid _ living),
      by simp [Event.isExit], rfl⟩
    simp [terminate, endNow, exec_bind, found, traps, not_hasEnded_of_exit? living]

/-- A condition that holds as soon as everything has happened that needs no time is not waited for. -/
theorem exec_runUntil_of_settled {condition : World → Bool} {w : World} (holds : condition w.settle = true) :
    (runUntil condition none).exec w = (.ok true, w.settle) := by
  have ends (moves : Nat) : runUntilWithin condition none (moves + 1) w = (.ok true, w.settle) := by
    unfold runUntilWithin
    exact if_pos holds
  simp only [runUntil, exec_bind, exec_world, exec_setWorld, exec_ofExcept, Option.map_none, ends]

/-- Waiting for a process lets the system go on, and nothing else shows but the wait. -/
theorem wait_passes (pid : Nat) (limit : Option Time) (w : World) :
    ∃ events, w.Passes ((wait pid limit).exec w).2 (.waited pid limit :: events) ∧ ∀ e ∈ events, e.isExit := by
  have called := passes_emit w (.waited pid limit) rfl fun _ => rfl
  obtain ⟨outcome, w', entries, ran, plays, -⟩ := exec_runUntil (hasEnded pid) limit (w.emit (.waited pid limit))
  obtain ⟨events, passes, exits⟩ := plays.runs
  refine ⟨events, ?_, exits⟩
  cases outcome with
  | error e => simpa [wait, exec_bind, ran] using called.trans passes
  | ok ended =>
    cases ended with
    | false => simpa [wait, exec_bind, ran] using called.trans passes
    | true =>
      simp only [wait, exec_bind, exec_emit, ran, if_true, exec_look, exec_pure]
      simpa using (called.trans passes).trans (notice_passes w' pid)

/-- A process that has ended when everything has happened that needs no time is not waited for. -/
theorem exec_wait_of_settled {w : World} {pid : Nat}
    (ended : hasEnded pid (w.emit (.waited pid none)).settle = true) :
    (wait pid none).exec w = (.ok (), (w.emit (.waited pid none)).settle.notice pid) := by
  simp only [wait, exec_bind, exec_emit, exec_runUntil_of_settled ended, exec_look, if_true, exec_pure]

/-- Waiting for a process that has ended returns, and its end is known from then on. -/
theorem wait_of_ended {w : World} {pid : Nat} {code : Int}
    (ended : w.exit? pid = some (some code)) :
    ∃ w' events, (wait pid none).exec w = (.ok (), w') ∧ w.Passes w' (.waited pid none :: events) ∧
      (∀ e ∈ events, e.isExit) ∧ w'.IsReaped pid code := by
  have called := passes_emit w (.waited pid none) rfl fun _ => rfl
  obtain ⟨events, settled, exits⟩ := settle_runs (w.emit (.waited pid none))
  have endedStill : (w.emit (.waited pid none)).exit? pid = some (some code) := ended
  have still := (settled.exit_stays endedStill).1
  refine ⟨_, events, exec_wait_of_settled (hasEnded_of_exit? still), ?_, exits, ?_, ?_⟩
  · simpa using (called.trans settled).trans (notice_passes _ pid)
  · rw [exit?_notice, still]
  · rw [seen?_notice, still]

end Sim

end Pipework
