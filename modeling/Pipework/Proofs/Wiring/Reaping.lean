import Pipework.Proofs.System.Processes
import Pipework.Proofs.Wiring.Steps

/-!
# Ending and awaiting what was started

After a failed start, every process that was started is ended, unless it has ended by itself, and
then waited for. Ending it takes effect at once, so waiting never blocks; afterwards its code is
known.
-/

namespace Pipework

/-- Whether every kill among some events is followed at once by the end of that process. Nobody is
killed who has ended already. -/
def KillsEnd (events : List Event) : Prop :=
  ∀ before pid after, events = before ++ .killed pid :: after →
    ∃ rest, after = .exited pid (World.signalCode Signal.kill) :: rest

namespace KillsEnd

theorem of_none {events : List Event} (none : ∀ pid, .killed pid ∉ events) : KillsEnd events := by
  intro before pid after split
  exact absurd (by rw [split]; simp) (none pid)

theorem of_exits {events : List Event} (exits : ∀ e ∈ events, e.isExit) : KillsEnd events :=
  of_none fun _ member => nomatch exits _ member

theorem append {a b : List Event} (first : KillsEnd a) (second : KillsEnd b) :
    KillsEnd (a ++ b) := by
  intro before pid after split
  rcases List.append_eq_append_iff.mp split with ⟨mid, rfl, inSecond⟩ | ⟨mid, rfl, inFirst⟩
  · exact second mid pid after inSecond
  · cases mid with
    | nil =>
      rw [List.nil_append] at inFirst
      exact second [] pid after inFirst.symm
    | cons e rest =>
      rw [List.cons_append, List.cons.injEq] at inFirst
      obtain ⟨rfl, rfl⟩ := inFirst
      obtain ⟨tail, rfl⟩ := first before pid rest rfl
      exact ⟨tail ++ b, rfl⟩

theorem pair (pid : Nat) : KillsEnd [.killed pid, .exited pid (World.signalCode Signal.kill)] := by
  intro before q after split
  cases before with
  | nil =>
    cases split
    exact ⟨[], rfl⟩
  | cons e rest =>
    obtain ⟨-, split⟩ := List.cons.inj split
    cases rest with
    | nil => cases split
    | cons e rest =>
      obtain ⟨-, split⟩ := List.cons.inj split
      simp at split

end KillsEnd

namespace World

/-- A process that is there stays there. -/
theorem Passes.known {w w' : World} {events : List Event} (passes : w.Passes w' events) {pid : Nat}
    (known : (w.exit? pid).isSome) : (w'.exit? pid).isSome := by
  rcases passes.exits pid with ⟨same, _⟩ | ⟨_, code, ended, _⟩
  · rw [same]
    exact known
  · rw [ended]
    rfl

end World

namespace Wiring

open World

/-- Looking at a started process and killing it if it lives: it has ended afterwards. -/
private theorem exec_killOne (σ : Wiring) (w : World) (pid : Nat) (text : Text)
    (known : (w.exit? pid).isSome) :
    ∃ w' events, (do
        match ← Sim.poll pid with
        | some _ => pure ()
        | none =>
          say .warning text
          Sim.kill pid : Wire Unit).exec σ w = (.ok (), σ, w') ∧ w.Passes w' events ∧
          KillsEnd events ∧
      ∃ code, w'.exit? pid = some (some code) := by
  obtain ⟨exits, settled, onlyExits⟩ := settle_runs w
  have looked := settled.trans (notice_passes w.settle pid)
  rw [List.append_nil] at looked
  obtain ⟨state, found⟩ := Option.isSome_iff_exists.mp (settled.known known)
  cases state with
  | some code =>
    refine ⟨w.settle.notice pid, exits, ?_, looked, .of_exits onlyExits, code, ?_⟩
    · simp [Owning.exec_bind, found]
    · rw [exit?_notice, found]
  | none =>
    have alive : ((w.settle.notice pid).written ⟨σ.settings.logger, .warning, text⟩).exit? pid =
        some none :=
      (exit?_notice w.settle pid pid).trans found
    have wrote : (w.settle.notice pid).Passes
        ((w.settle.notice pid).written ⟨σ.settings.logger, .warning, text⟩) [] :=
      passes_of_same rfl rfl rfl rfl rfl rfl rfl
    have killed := (looked.trans wrote).trans (Sim.kill_passes alive)
    rw [List.append_nil] at killed
    refine ⟨_, _, ?_, killed, (KillsEnd.of_exits onlyExits).append (.pair pid), ?_⟩
    · simp [Owning.exec_bind, found, Sim.exec_kill_of_alive alive]
    · rcases killed.exits pid with ⟨_, none⟩ | ⟨_, code, ended, _⟩
      · simp [codesIn, Event.codeOf?] at none
      · exact ⟨code, ended⟩

theorem exec_killStarted (σ : Wiring) {w : World} (entries : List (Command × Nat))
    (known : ∀ e ∈ entries, (w.exit? e.2).isSome) :
    ∃ w' events, (killStarted entries).exec σ w = (.ok (), σ, w') ∧ w.Passes w' events ∧
      KillsEnd events ∧
      ∀ e ∈ entries, ∃ code, w'.exit? e.2 = some (some code) := by
  induction entries generalizing w with
  | nil => exact ⟨w, [], rfl, .refl w, .of_none (by simp), by simp⟩
  | cons entry rest ih =>
    obtain ⟨command, pid⟩ := entry
    obtain ⟨w₁, first, run, passes, kills, code, ended⟩ := exec_killOne σ w pid
      ("Killing pid " ++ Text.ofNat pid ++ " (" ++ command.line ++ ") after failed spawn")
      (known (command, pid) List.mem_cons_self)
    obtain ⟨w₂, later, runRest, passesRest, killsRest, endedRest⟩ := ih (w := w₁) fun e member =>
      passes.known (known e (List.mem_cons_of_mem _ member))
    refine ⟨w₂, first ++ later, ?_, passes.trans passesRest, kills.append killsRest, ?_⟩
    · simp only [killStarted, Owning.exec_bind, Owning.exec_lift, Sim.exec_poll] at run ⊢
      cases looked : (w.settle.exit? pid).join with
      | some code =>
        simp only [looked, Owning.exec_pure, Prod.mk.injEq, true_and] at run ⊢
        rw [run]
        exact runRest
      | none =>
        simp only [looked, Owning.exec_bind, exec_say, Owning.exec_lift] at run ⊢
        rw [run]
        exact runRest
    · intro e member
      rcases List.mem_cons.mp member with rfl | member
      · exact ⟨code, (passesRest.exit_stays ended).1⟩
      · exact endedRest e member

theorem exec_awaitStarted {w : World} (entries : List (Command × Nat))
    (ended : ∀ e ∈ entries, ∃ code, w.exit? e.2 = some (some code)) :
    ∃ w' events, (awaitStarted entries).exec w = (.ok (), w') ∧ w.Passes w' events ∧
      (∀ pid, .killed pid ∉ events) ∧ ∀ e ∈ entries, .waited e.2 none ∈ events ∧
        ∃ code, w'.IsReaped e.2 code := by
  induction entries generalizing w with
  | nil => exact ⟨w, [], rfl, .refl w, by simp, by simp⟩
  | cons entry rest ih =>
    obtain ⟨command, pid⟩ := entry
    obtain ⟨code, gone⟩ := ended (command, pid) List.mem_cons_self
    obtain ⟨w₁, exits, run, passes, onlyExits, reaped⟩ := Sim.wait_of_ended gone
    obtain ⟨w₂, later, runRest, passesRest, noKill, reapedRest⟩ := ih (w := w₁) fun e member => by
      obtain ⟨other, gone⟩ := ended e (List.mem_cons_of_mem _ member)
      exact ⟨other, (passes.exit_stays gone).1⟩
    refine ⟨w₂, .waited pid none :: exits ++ later, ?_, passes.trans passesRest, ?_, ?_⟩
    · rw [awaitStarted, Sim.exec_bind, run]
      exact runRest
    · intro q member
      rcases List.mem_append.mp member with first | member
      · rcases List.mem_cons.mp first with same | inExits
        · cases same
        · cases onlyExits _ inExits
      · exact noKill q member
    · intro e member
      rcases List.mem_cons.mp member with rfl | member
      · exact ⟨by simp, code, passesRest.isReaped reaped⟩
      · obtain ⟨waited, known⟩ := reapedRest e member
        exact ⟨List.mem_append_right _ waited, known⟩

end Wiring

/-- Whether a process ended once among some events, was waited for after that, and its code is
known. -/
def ReapedIn (w : World) (pid : Nat) (events : List Event) : Prop :=
  ∃ code before after, events = before ++ .waited pid none :: after ∧ codesIn pid before = [code] ∧
    codesIn pid after = [] ∧ w.IsReaped pid code

theorem ReapedIn.prepend {w : World} {pid : Nat} {events more : List Event}
    (reaped : ReapedIn w pid more) (quiet : codesIn pid events = []) :
    ReapedIn w pid (events ++ more) := by
  obtain ⟨code, before, after, rfl, ended, silent, known⟩ := reaped
  refine ⟨code, events ++ before, after, by rw [List.append_assoc], ?_, silent, known⟩
  rw [codesIn_append, quiet, ended]
  rfl

theorem ReapedIn.extend {w w' : World} {pid : Nat} {events more : List Event}
    (reaped : ReapedIn w pid events) (quiet : codesIn pid more = [])
    (processes : w'.processes = w.processes) : ReapedIn w' pid (events ++ more) := by
  obtain ⟨code, before, after, rfl, ended, silent, known⟩ := reaped
  refine ⟨code, before, after ++ more, by simp, ended, ?_, ?_⟩
  · rw [codesIn_append, silent, quiet]
    rfl
  · simpa [World.IsReaped, World.exit?, World.seen?, World.process?, processes] using known

/-- Ending and awaiting processes that were alive. -/
theorem Wiring.exec_reap (σ : Wiring) {w : World} (entries : List (Command × Nat))
    (alive : ∀ e ∈ entries, w.exit? e.2 = some none) :
    ∃ w₁ w₂ events, (killStarted entries).exec σ w = (.ok (), σ, w₁) ∧
      (awaitStarted entries).exec w₁ = (.ok (), w₂) ∧ w.Passes w₂ events ∧ KillsEnd events ∧
      ∀ e ∈ entries, ReapedIn w₂ e.2 events := by
  obtain ⟨w₁, killing, ran, passes, kills, ended⟩ :=
    exec_killStarted σ (w := w) entries fun e member => by
    rw [alive e member]
    rfl
  obtain ⟨w₂, awaiting, awaited, passes', noKill, reaped⟩ := exec_awaitStarted entries ended
  refine ⟨w₁, w₂, killing ++ awaiting, ran, awaited, passes.trans passes',
    kills.append (.of_none noKill), ?_⟩
  intro e member
  obtain ⟨waited, code, known⟩ := reaped e member
  obtain ⟨code', gone⟩ := ended e member
  obtain ⟨still, silent⟩ := passes'.exit_stays gone
  have same : code' = code := by
    have codes := still.symm.trans known.1
    simpa using codes
  subst same
  obtain ⟨before, after, rfl⟩ := List.append_of_mem waited
  rw [codesIn_append] at silent
  obtain ⟨silentBefore, silentAfter⟩ := List.append_eq_nil_iff.mp silent
  refine ⟨code', killing ++ before, after, by rw [List.append_assoc], ?_, silentAfter, known⟩
  rcases passes.exits e.2 with ⟨unchanged, _⟩ | ⟨_, c, gone', one⟩
  · rw [gone, alive e member] at unchanged
    cases unchanged
  · rw [gone] at gone'
    cases gone'
    rw [codesIn_append, one, silentBefore]
    rfl

end Pipework
