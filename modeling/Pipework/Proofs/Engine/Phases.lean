import Pipework.Engine
import Pipework.Proofs.Pump.Launching
import Pipework.Proofs.Wiring.Abort

/-!
# The phases of a start

`spawn` first builds and checks the graph, which leaves the system as it is, then wires it, and then
either gives everything up or starts the pumps. Each phase is run once here.
-/

namespace Pipework

namespace Engine

/-- A start gets as far as wiring this graph in this system. -/
structure Begins (item : Item) (values : RedirectValues) (w : World) (graph : Graph) (w₁ : World) :
    Prop where
  redirected : (building (Graph.redirect item values false)).exec w = (.ok graph, w₁)
  checked : checkEndpoints graph = .ok ()

private theorem report_ok {α : Type} (m : Memory) (a : α) :
    BuildError.report m (.ok a) = .ok a := rfl

private theorem report_error {α : Type} (m : Memory) (e : BuildError) :
    BuildError.report m (.error e : Except BuildError α) = .error (e.failure m) := rfl

/-- Building only draws numbers. -/
theorem exec_building {α : Type} (b : Building α) (w : World) :
    ∃ n, ((building b).exec w).2 = { w with nextNumber := n } := by
  unfold building
  rw [Sim.exec_bind, Sim.exec_world]
  dsimp only
  split
  · next a n run => exact ⟨n, rfl⟩
  · next e run => exact ⟨w.nextNumber, rfl⟩

theorem Begins.drawn {item : Item} {values : RedirectValues} {w w₁ : World} {graph : Graph}
    (begins : Begins item values w graph w₁) : ∃ n, w₁ = { w with nextNumber := n } := by
  obtain ⟨n, same⟩ := exec_building (Graph.redirect item values false) w
  rw [begins.redirected] at same
  exact ⟨n, same⟩

theorem Begins.passes {item : Item} {values : RedirectValues} {w w₁ : World} {graph : Graph}
    (begins : Begins item values w graph w₁) : w.Passes w₁ [] := by
  obtain ⟨n, rfl⟩ := begins.drawn
  exact World.passes_of_same rfl rfl rfl rfl rfl rfl rfl

/-- The graph that is wired is made by redirecting. -/
theorem Begins.made {item : Item} {values : RedirectValues} {w w₁ : World} {graph : Graph}
    (begins : Begins item values w graph w₁) :
    ∃ n n', (Graph.redirect item values false).run n = .ok (graph, n') := by
  have redirected := begins.redirected
  unfold building at redirected
  rw [Sim.exec_bind, Sim.exec_world] at redirected
  dsimp only at redirected
  split at redirected
  · next g n made =>
    cases redirected
    exact ⟨_, _, made⟩
  · cases redirected

/-- A graph that cannot be redirected is not started. -/
theorem exec_spawn_of_unbuilt {item : Item} {values : RedirectValues} {w w₁ : World} {failure : Failure} (e : Engine)
    (built : (building (Graph.redirect item values false)).exec w = (.error failure, w₁)) :
    (spawn item values).exec e w = (.error failure, e, w₁) := by
  simp only [spawn, Owning.exec_bind, Owning.exec_lift, built]

/-- A graph in which two redirects ask for an end of the same stream is not started. -/
theorem exec_spawn_of_unchecked {item : Item} {values : RedirectValues} {w w₁ : World} {graph : Graph}
    {refusal : BuildError} (e : Engine)
    (built : (building (Graph.redirect item values false)).exec w = (.ok graph, w₁))
    (checked : checkEndpoints graph = .error refusal) :
    (spawn item values).exec e w = (.error (refusal.failure w₁.memory), e, w₁) := by
  simp only [spawn, Owning.exec_bind, Owning.exec_lift, built, Sim.exec_world, checked,
    Sim.exec_ofExcept, report_error]

/-- A start that does not get as far as wiring fails at once and leaves everything as it is. -/
theorem exec_spawn_of_not_begins {item : Item} {values : RedirectValues} (e : Engine) {w : World}
    (stuck : ∀ graph w₁, ¬ Begins item values w graph w₁) :
    ∃ failure n, (spawn item values).exec e w =
      (.error failure, e, { w with nextNumber := n }) := by
  obtain ⟨n, same⟩ := exec_building (Graph.redirect item values false) w
  generalize built : (building (Graph.redirect item values false)).exec w = result at same
  obtain ⟨outcome, w₁⟩ := result
  cases outcome with
  | error failure => exact ⟨failure, n, same ▸ exec_spawn_of_unbuilt e built⟩
  | ok graph =>
    cases checked : checkEndpoints graph with
    | ok _ => exact absurd ⟨built, checked⟩ (stuck graph w₁)
    | error refusal => exact ⟨refusal.failure w₁.memory, n, same ▸ exec_spawn_of_unchecked e built checked⟩

section Begun

variable {item : Item} {values : RedirectValues} {e : Engine} {w w₁ w₂ w₃ : World} {graph : Graph}
    {σ σ' : Wiring}
variable (begins : Begins item values w graph w₁)
include begins

/-- A wiring that fails makes the start fail. -/
theorem exec_spawn_of_error {failure : Failure}
    (wired : (wire e.settings graph).exec w₁ = (.error failure, w₂)) :
    (spawn item values).exec e w = (.error failure, e, w₂) := by
  obtain ⟨redirected, checked⟩ := begins
  simp only [spawn, Owning.exec_bind, Owning.exec_lift, redirected, Sim.exec_world, checked,
    Sim.exec_ofExcept, report_ok, Owning.exec_own, wired]

/-- Commands that could not be started make the start fail, after everything is given up. -/
theorem exec_spawn_of_failures (wired : (wire e.settings graph).exec w₁ = (.ok σ, w₂))
    (failed : σ.failures ≠ []) (aborted : Wiring.abort.exec σ w₂ = (.ok (), σ', w₃)) :
    (spawn item values).exec e w = (.error (.spawn σ.failures),
      { e with stats := { e.stats with
        spawnFailures := e.stats.spawnFailures + σ.failures.length } },
      w₃.written ⟨e.settings.logger, .error, (Failure.spawn σ.failures).message⟩) := by
  obtain ⟨redirected, checked⟩ := begins
  have some : (!σ.failures.isEmpty) = true := by simpa using failed
  simp only [spawn, Owning.exec_bind, Owning.exec_lift, redirected, Sim.exec_world, checked,
    Sim.exec_ofExcept, report_ok, Owning.exec_own, wired, some, if_true, Owning.exec_change,
    Owning.exec_liftRunOn, aborted, Sim.exec_note, Owning.exec_throw]
  rfl

/-- Otherwise the pumps are started, and the caller gets a handle. -/
theorem exec_spawn_of_ok {pumps : List Pump} (wired : (wire e.settings graph).exec w₁ = (.ok σ, w₂))
    (fine : σ.failures = [])
    (launched : Id.run ((Handle.onPumps Pump.start σ.pumps).run w₂) = ((.ok (), pumps), w₃)) :
    ∃ line, (spawn item values).exec e w = (.ok {
        graph, pumps
        processes := σ.processes
        stdin := σ.writer?
        stdout := σ.reader? .stdout
        stderr := σ.reader? .stderr
        logger := e.settings.logger
        settings := e.settings.pumps },
      { e with stats := { e.stats with
          graphs := e.stats.graphs + 1
          processes := e.stats.processes + σ.processes.length } }, w₃.written line) := by
  obtain ⟨redirected, checked⟩ := begins
  have none : (!σ.failures.isEmpty) = false := by simp [fine]
  have started : (liftM (Handle.onPumps Pump.start σ.pumps) : Owning Engine
      (Except Failure Unit × List Pump)).exec e w₂
      = (.ok (.ok (), pumps), e, w₃) := by
    change (Except.ok (Id.run ((Handle.onPumps Pump.start σ.pumps).run w₂)).1, e,
      (Id.run ((Handle.onPumps Pump.start σ.pumps).run w₂)).2) = _
    rw [launched]
  simp only [spawn, Owning.exec_bind, Owning.exec_lift, redirected, Sim.exec_world, checked,
    Sim.exec_ofExcept, report_ok, Owning.exec_own, wired, none, Bool.false_eq_true, if_false,
    started, Owning.exec_change, Sim.exec_note, Owning.exec_pure]
  exact ⟨_, rfl⟩

end Begun

/-- What is true of a start that a chore has stopped: the chores before it were done, and every command
among them was tried once, in order. -/
structure StoppedAt (graph : Graph) (settings : StartSettings) (w : World) (e : Failure)
    (done : List Chore) (c : Chore) (events : List Event) (starts : List Start) : Prop where
  split : ∃ rest, graph.chores [] = done ++ c :: rest
  /-- The chores before can all be done, and then this one fails. -/
  fails : ∃ σ w₁ σ' w', (Chore.performAll (graph.values w.nextDescriptor) done).exec { settings } w =
      (.ok (), σ, w₁) ∧
    (c.perform (graph.values w.nextDescriptor)).exec σ w₁ = (.error e, σ', w')
  tried : starts.map (fun s => (s.leaf, s.above)) = done.filterMap Chore.leaf?
  commands : ∀ s ∈ starts, s.leaf.commandOf = .ok s.command
  shown : events.filter Event.isStart = starts.map (Start.event (graph.values w.nextDescriptor))

/-- A walk that fails is given up, wherever it has stopped. -/
theorem exec_wire_of_stopped {settings : StartSettings} {graph : Graph} {value : Claim → Descriptor}
    {w w₁ : World} {done : List Chore} {σ : Wiring} {events : List Event} {starts : List Start} {e : Failure}
    (sound : w.Sound) (progress : Wiring.Progress value settings w w₁ done σ events starts)
    (walked : (Wiring.walk {} graph).exec { settings } w = (.error e, σ, w₁)) :
    ∃ w' more, (wire settings graph).exec w = (.error e, w') ∧ w.NothingLeft w' (events ++ more) ∧
      more.filter Event.isStart = [] ∧ openedBy more = [] := by
  obtain ⟨closed, -⟩ := progress.exec_closeChildSide sound
  obtain ⟨w', more, aborted, nothing, quiet⟩ := progress.exec_abort sound
  refine ⟨w', more, ?_, nothing, quiet⟩
  simp only [wire, Sim.exec_bind, Sim.exec_runOn, walked, giveUp, Owning.exec_bind, closed, aborted,
    Sim.exec_ofExcept, Sim.exec_pure, Sim.exec_throw]

/-- A walk that fails is given up, and its failure is passed on. -/
theorem exec_wire_of_error {settings : StartSettings} {graph : Graph} {w w₁ : World} {σ : Wiring}
    {e : Failure} (sound : w.Sound) (walked : (Wiring.walk {} graph).exec { settings } w =
      (.error e, σ, w₁)) :
    ∃ w' events done c starts, (wire settings graph).exec w = (.error e, w') ∧
      w.NothingLeft w' events ∧ StoppedAt graph settings w e done c events starts := by
  obtain ⟨done, c, rest, σ₁, w₂, events, starts, split, before, failed, progress⟩ :=
    Wiring.walk_stopped sound walked
  obtain ⟨w', more, wired, nothing, quiet, -⟩ := exec_wire_of_stopped sound progress walked
  exact ⟨w', events ++ more, done, c, starts, wired, nothing,
    { split := ⟨rest, split⟩
      fails := ⟨σ₁, w₂, σ, w₁, before, failed⟩
      tried := progress.roster.occurrences
      commands := progress.roster.commands
      shown := by rw [List.filter_append, quiet, List.append_nil, progress.roster.shown] }⟩

/-- A walk that ends well has done all chores, and only what is kept is left open. -/
theorem exec_wire_of_ok {settings : StartSettings} {graph : Graph} {w w₁ : World} {σ : Wiring}
    (sound : w.Sound) (walked : (Wiring.walk {} graph).exec { settings } w = (.ok (), σ, w₁)) :
    ∃ events starts,
      Wiring.Progress (graph.values w.nextDescriptor) settings w w₁ (graph.chores []) σ events
        starts ∧
      (wire settings graph).exec w = (.ok { σ with childDescriptors := [], files := [] },
        w₁.shutAll (σ.childDescriptors ++ σ.files)) := by
  obtain ⟨done, rest, events, starts, split, progress, finished⟩ :=
    Wiring.walk_progress graph settings w sound
  rw [walked] at progress finished
  rw [finished rfl, List.append_nil] at split
  obtain ⟨closed, -⟩ := progress.exec_closeChildSide sound
  refine ⟨events, starts, split ▸ progress, ?_⟩
  simp only [wire, Sim.exec_bind, Sim.exec_runOn, walked, closed, Sim.exec_ofExcept, Sim.exec_pure]

/-- The pumps of a wiring whose commands have been started can all be started. -/
theorem launch_pumps {w₀ w : World} {σ : Wiring} {events : List Event}
    (kept : Wiring.Kept w₀ w σ events) (sound₀ : w₀.Sound) :
    ∃ pumps w' more, Id.run ((Handle.onPumps Pump.start σ.pumps).run w) = ((.ok (), pumps), w') ∧
      Pump.Launches σ.pumps pumps more ∧ w₀.Account w' (events ++ more) ∧ w'.Sound ∧
      w'.processes.map Process.still = w.processes.map Process.still := by
  have distinct := kept.kept.nodup_iff.mpr (kept.account.nodup_opened.filter _)
  refine Handle.run_onPumps_start kept.account sound₀ kept.sound kept.pumps
    (List.nodup_append.mp distinct).2.1 ?_
  intro d member
  exact kept.kept.mem_iff.mp (List.mem_append_right _ member)

/-- A start that has succeeded has come through all phases: the walk has done every chore, no
command could not be started, and the pumps were started on what it kept. -/
structure Succeeds (item : Item) (values : RedirectValues) (e : Engine) (w : World)
    (handle : Handle) (e' : Engine) (w' w₁ w₂ : World) (σ : Wiring) (events launching : List Event)
    (starts : List Start) : Prop where
  begins : Begins item values w handle.graph w₁
  progress : Wiring.Progress (handle.graph.values w₁.nextDescriptor) e.settings w₁ w₂
      (handle.graph.chores []) σ events
    starts
  fine : σ.failures = []
  wired : (wire e.settings handle.graph).exec w₁
    = (.ok { σ with childDescriptors := [], files := [] },
      w₂.shutAll (σ.childDescriptors ++ σ.files))
  launches : Pump.Launches σ.pumps handle.pumps launching
  account : w₁.Account w' (events ++ (σ.childDescriptors ++ σ.files).map .closed ++ launching)
  sound : w'.Sound
  handle : handle = {
    graph := handle.graph
    pumps := handle.pumps
    processes := σ.processes
    stdin := σ.writer?
    stdout := σ.reader? .stdout
    stderr := σ.reader? .stderr
    logger := e.settings.logger
    settings := e.settings.pumps }
  counted : e' = { e with stats := { e.stats with
    graphs := e.stats.graphs + 1
    processes := e.stats.processes + σ.processes.length } }
  still : w'.processes.map Process.still = w₂.processes.map Process.still

/-- What a start can come to. -/
inductive Ends (item : Item) (values : RedirectValues) (e : Engine) (w : World) :
    Except Failure Handle → Engine → World → Prop
  /-- It never gets as far as wiring. -/
  | refused {failure : Failure} {n : Nat} (stuck : ∀ graph w₁, ¬ Begins item values w graph w₁) :
      Ends item values e w (.error failure) e { w with nextNumber := n }
  /-- The walk fails. -/
  | stopped {graph : Graph} {original : Failure} {σ : Wiring} {w₁ w₂ w₃ : World}
      {events : List Event} {done : List Chore} {c : Chore} {starts : List Start}
      (begins : Begins item values w graph w₁)
      (walked : (Wiring.walk {} graph).exec { settings := e.settings } w₁ =
        (.error original, σ, w₂))
      (nothing : w₁.NothingLeft w₃ events)
      (stopped : StoppedAt graph e.settings w₁ original done c events starts) :
      Ends item values e w (.error original) e w₃
  /-- The walk comes to its end, but some commands could not be started. -/
  | incomplete {graph : Graph} {σ : Wiring} {w₁ w₂ w₃ : World} {events more : List Event}
      {starts : List Start}
      {line : LogLine} (begins : Begins item values w graph w₁)
      (walked : (Wiring.walk {} graph).exec { settings := e.settings } w₁ = (.ok (), σ, w₂))
      (progress : Wiring.Progress (graph.values w₁.nextDescriptor) e.settings w₁ w₂
        (graph.chores []) σ events starts)
      (failed : σ.failures ≠ []) (quiet : more.filter Event.isStart = [])
      (nothing : w₁.NothingLeft w₃ (events ++ more)) :
      Ends item values e w (.error (.spawn σ.failures))
        { e with stats := { e.stats with
          spawnFailures := e.stats.spawnFailures + σ.failures.length } }
        (w₃.written line)
  | succeeded {handle : Handle} {e' : Engine} {w' w₁ w₂ : World} {σ : Wiring}
      {events launching : List Event}
      {starts : List Start} (succeeds : Succeeds item values e w handle e' w' w₁ w₂ σ events
        launching starts) :
      Ends item values e w (.ok handle) e' w'

/-- Every start comes to one of these ends. -/
theorem spawn_ends {item : Item} {values : RedirectValues} {e e' : Engine} {w w' : World}
    {outcome : Except Failure Handle} (sound : w.Sound)
    (run : (spawn item values).exec e w = (outcome, e', w')) :
    Ends item values e w outcome e' w' := by
  by_cases begun : ∃ graph w₁, Begins item values w graph w₁
  case neg =>
    have stuck : ∀ graph w₁, ¬ Begins item values w graph w₁ := fun graph w₁ begins =>
        begun ⟨graph, w₁, begins⟩
    obtain ⟨refusal, n, refused⟩ := exec_spawn_of_not_begins e stuck
    rw [refused] at run
    cases run
    exact .refused stuck
  case pos =>
  obtain ⟨graph, w₁, begins⟩ := begun
  have sound₁ := sound.passes begins.passes
  generalize walked : (Wiring.walk {} graph).exec { settings := e.settings } w₁ = walk
  obtain ⟨walkOutcome, σ, w₂⟩ := walk
  cases walkOutcome with
  | error original =>
    obtain ⟨w₃, events, done, c, starts, wired, nothing, stopped⟩ := exec_wire_of_error sound₁ walked
    rw [exec_spawn_of_error begins wired] at run
    cases run
    exact .stopped begins walked nothing stopped
  | ok done =>
    obtain ⟨events, starts, progress, wired⟩ := exec_wire_of_ok sound₁ walked
    by_cases fine : σ.failures = []
    · obtain ⟨-, kept⟩ := progress.exec_closeChildSide sound₁
      obtain ⟨pumps, w₃, launching, launched, launches, account, sound₃, still⟩ :=
        launch_pumps kept sound₁
      obtain ⟨line, succeeded⟩ := exec_spawn_of_ok begins wired fine launched
      rw [succeeded] at run
      cases run
      have account := account.passes (w₃.passes_written line)
      rw [List.append_nil] at account
      exact .succeeded ⟨begins, progress, fine, wired, launches, account,
        sound₃.passes (w₃.passes_written line), rfl, rfl, still.trans (by rw [World.processes_shutAll])⟩
    · obtain ⟨w₃, more, aborted, nothing, quiet, -⟩ := progress.exec_abort sound₁
      rw [exec_spawn_of_failures begins wired fine aborted] at run
      cases run
      have ends (line : LogLine) : Ends item values e w (.error (.spawn σ.failures)) _
          (w₃.written line) :=
        .incomplete begins walked progress fine quiet nothing
      exact ends _

/-- The system stays sound, whatever a start comes to. -/
theorem spawn_sound {item : Item} {values : RedirectValues} {e e' : Engine} {w w' : World}
    {outcome : Except Failure Handle} (sound : w.Sound)
    (run : (spawn item values).exec e w = (outcome, e', w')) :
    w'.Sound := by
  cases spawn_ends sound run with
  | refused => exact sound.passes (World.passes_of_same rfl rfl rfl rfl rfl rfl rfl)
  | stopped _ _ nothing => exact nothing.sound
  | incomplete _ _ _ _ _ nothing => exact nothing.sound.passes (World.passes_written _ _)
  | succeeded succeeds => exact succeeds.sound

theorem spawn_ok {item : Item} {values : RedirectValues} {e e' : Engine} {w w' : World}
    {handle : Handle} (sound : w.Sound)
    (spawned : (spawn item values).exec e w = (.ok handle, e', w')) :
    ∃ w₁ w₂ σ events launching starts,
      Succeeds item values e w handle e' w' w₁ w₂ σ events launching starts := by
  cases spawn_ends sound spawned with
  | succeeded succeeds => exact ⟨_, _, _, _, _, _, succeeds⟩

/-! ## A small graph -/

/-- A leaf with a program of one letter. -/
private def letterLeaf (number : Nat) (program : Char) (r : Redirects) : Graph :=
  .leaf number ⟨.own number, .command
    { program := [.char program], program_ne_nil := by simp } []⟩ r

/-- The command of a program of one letter. -/
def letterItem (program : Char) : Item :=
  ⟨.constant "command", .command { program := [.char program], program_ne_nil := by simp } []⟩

/-- Two bytes go into `a`, its output goes through `b` to the caller, and the errors of `b` go into
another `a`. -/
def smallGraph : Graph :=
  let fed : Labelled Target := ⟨.constant "fed", .buffer ⟨.constant "bytes", .bytes [104, 105]⟩⟩
  let errors : Labelled Target := ⟨.constant "errors", .graph (letterLeaf 1 'a' {})⟩
  .pipe 4 (letterLeaf 2 'a' { stdin := some fed })
    (letterLeaf 3 'b' { stdout := some Target.callerEnd, stderr := some errors }) {}

/-- A new system with some programs that pass their input on. -/
def smallWorld (programs : List Char) : World :=
  { programs := programs.map fun c => ([.char c], { out := [.input .raw] }) }

theorem smallWorld_sound (programs : List Char) : (smallWorld programs).Sound :=
  .ofNew rfl rfl (by simp [smallWorld]) rfl

end Engine

end Pipework
