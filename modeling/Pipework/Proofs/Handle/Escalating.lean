import Pipework.Proofs.Capture.Cleanup
import Pipework.Proofs.Handle.Brisk

/-!
# Stopping a handle

Stopping asks every process to end, gives them all the same span of time for it, kills those that have not ended when
it is over, and closes the handle. It takes the processes one after the other, and each is looked at when its turn
comes: what was done to the others before may have made it end (`asked_to_end_in_turn`). So the signals go exactly to
the processes that are alive in their turns (`Handle.stop_escalates`), which a process that has ended in time is not,
wherever it stands among the others.
-/

namespace Pipework

namespace World

/-- Processes pass, and some of them are sent signals on the way. -/
def Sends (w w' : World) (signals : List (Nat × Nat)) : Prop :=
  ∃ events, w.Passes w' events ∧ signalsIn events = signals

namespace Sends

variable {w₀ w w' : World} {a b : List (Nat × Nat)} {events : List Event} {pid : Nat}

theorem silent (passes : w.Passes w' events) (silent : ∀ e ∈ events, e.signal? = none) : w.Sends w' [] :=
  ⟨events, passes, List.filterMap_eq_nil_iff.mpr silent⟩

theorem refl (w : World) : w.Sends w [] := ⟨[], .refl w, rfl⟩

theorem trans (first : w₀.Sends w a) (second : w.Sends w' b) : w₀.Sends w' (a ++ b) := by
  obtain ⟨x, passes, rfl⟩ := first
  obtain ⟨y, passes', rfl⟩ := second
  exact ⟨x ++ y, passes.trans passes', signalsIn_append x y⟩

theorem known (sends : w.Sends w' a) (known : (w.exit? pid).isSome) : (w'.exit? pid).isSome := by
  obtain ⟨_, passes, -⟩ := sends
  exact passes.known known

theorem alive (sends : w.Sends w' a) (alive : w'.exit? pid = some none) : w.exit? pid = some none := by
  obtain ⟨_, passes, -⟩ := sends
  exact passes.alive alive

theorem gone (sends : w.Sends w' a) (ended : Sim.hasEnded pid w = true) : Sim.hasEnded pid w' = true := by
  rw [hasEnded_iff] at ended ⊢
  exact ended ∘ sends.alive

end Sends

end World

open World

namespace Handle

variable {h : Handle} {w₀ w w' : World} {d span : Time} {pid : Nat}

/-! ## Turns -/

/-- The turns of some processes when those that live are asked to end: each with the system as it is looked at. -/
def asking (w : World) : List Nat → List (Nat × World)
  | [] => []
  | pid :: rest => (pid, w.settle) :: asking ((eachAlive Sim.terminate [pid]).exec w).2 rest

/-- The turns of some processes when each is waited for by a deadline and is killed if it lives then: each with what the
system comes to by the deadline when it is left alone from the turn on. -/
def awaiting (d : Time) (h : Handle) (w : World) : List Nat → List (Nat × World)
  | [] => []
  | pid :: rest => (pid, w.leftUntil d) :: awaiting d h ((waitOrKill d [pid]).exec h w).2.2 rest

/-- The processes that are alive in their turns. -/
def living (turns : List (Nat × World)) : List Nat := (turns.filter fun t => t.2.exit? t.1 = some none).map (·.1)

theorem living_append (first later : List (Nat × World)) : living (first ++ later) = living first ++ living later := by
  simp [living]

theorem mem_living_singleton {q : Nat} : q ∈ living [(pid, w)] ↔ q = pid ∧ w.exit? pid = some none := by
  by_cases alive : w.exit? pid = some none <;> simp [living, alive]

theorem living_cons_of_alive {turns : List (Nat × World)} (alive : w.exit? pid = some none) :
    living ((pid, w) :: turns) = pid :: living turns := by simp [living, alive]

theorem living_cons_of_not_alive {turns : List (Nat × World)} (ended : w.exit? pid ≠ some none) :
    living ((pid, w) :: turns) = living turns := by simp [living, ended]

/-! ## Asking to end -/

/-- A process is asked to end if it is alive in its turn, which takes no time. -/
private theorem exec_askIfAlive (known : (w.exit? pid).isSome) (lasts : w₀.Lasts d w) :
    ∃ w', (eachAlive Sim.terminate [pid]).exec w = (.ok (), w') ∧
      w.Sends w' ((living [(pid, w.settle)]).map (·, Signal.terminate)) ∧ w'.clock = w.clock ∧ w₀.Lasts d w' ∧
      (w.settle.exit? pid ≠ some none → Sim.hasEnded pid w' = true) := by
  obtain ⟨exits, settled, onlyExits⟩ := settle_runs w
  have silent := Sends.silent settled fun e member => (Event.silent_of_isExit (onlyExits e member)).signal
  have looked := silent.trans (Sends.silent (notice_passes w.settle pid) nofun)
  have instant := (Instant.settle w).trans (.notice w.settle pid)
  rw [exec_eachAlive_one _ known]
  by_cases alive : w.settle.exit? pid = some none
  · obtain ⟨w', events, asked, passes, exits, clock⟩ :=
      Sim.exec_terminate_of_alive ((exit?_notice w.settle pid pid).trans alive)
    have quiet (e : Event) (member : e ∈ events) := Event.silent_of_isExit (exits e member)
    refine ⟨w', (if_pos alive).trans asked, ?_, clock.trans instant.clock, ?_, absurd alive⟩
    · rw [living_cons_of_alive alive]
      refine looked.trans ⟨_, passes, ?_⟩
      exact congrArg _ (Event.signalsIn_of_silent quiet)
    · refine (lasts.instant instant).passes passes clock fun e member => ?_
      rcases List.mem_cons.mp member with rfl | later
      · exact nofun
      · exact (quiet e later).patient
  · rw [living_cons_of_not_alive alive]
    refine ⟨_, if_neg alive, looked, instant.clock, lasts.instant instant, fun ended => ?_⟩
    exact hasEnded_iff.mpr ((exit?_notice w.settle pid pid).symm ▸ ended)

/-- So are several, one after the other; and those that are asked have been alive from the beginning. -/
theorem exec_eachAlive_terminate (pids : List Nat) : ∀ {w : World}, (∀ pid ∈ pids, (w.exit? pid).isSome) →
    w₀.Lasts d w → ∃ w', (eachAlive Sim.terminate pids).exec w = (.ok (), w') ∧
      w.Sends w' ((living (asking w pids)).map (·, Signal.terminate)) ∧ w'.clock = w.clock ∧ w₀.Lasts d w' ∧
      (∀ pid ∈ living (asking w pids), w.exit? pid = some none) ∧
      ∀ pid ∈ pids, pid ∈ living (asking w pids) ∨ Sim.hasEnded pid w' = true := by
  induction pids with
  | nil => exact fun {w} _ lasts => ⟨w, rfl, .refl w, rfl, lasts, nofun, nofun⟩
  | cons pid rest ih =>
    intro w known lasts
    obtain ⟨w₁, asked, one, clock₁, lasts₁, gone⟩ := exec_askIfAlive (known pid List.mem_cons_self) lasts
    obtain ⟨w', ran, others, clock, lasts', before, all⟩ :=
      ih (fun q member => one.known (known q (List.mem_cons_of_mem _ member))) lasts₁
    have turns : asking w (pid :: rest) = [(pid, w.settle)] ++ asking w₁ rest := by rw [asking, asked]; rfl
    rw [turns, living_append, List.map_append]
    refine ⟨w', ?_, one.trans others, clock.trans clock₁, lasts', fun q member => ?_, fun q member => ?_⟩
    · rw [eachAlive_cons, Sim.exec_bind, asked]
      exact ran
    · rcases List.mem_append.mp member with first | later
      · obtain ⟨same, alive⟩ := mem_living_singleton.mp first
        obtain ⟨_, settled, -⟩ := settle_runs w
        exact settled.alive (same ▸ alive)
      · exact one.alive (before q later)
    · rw [List.mem_append, or_assoc]
      rcases List.mem_cons.mp member with rfl | later
      · by_cases alive : w.settle.exit? q = some none
        · exact .inl (mem_living_singleton.mpr ⟨rfl, alive⟩)
        · exact .inr (.inr (others.gone (gone alive)))
      · exact .inr (all q later)

/-! ## Waiting and killing -/

theorem waitOrKill_cons (d : Time) (pid : Nat) (rest : List Nat) :
    waitOrKill d (pid :: rest) = (do waitOrKill d [pid]; waitOrKill d rest) := by
  simp only [waitOrKill, bind_assoc]
  congr 1
  funext outcome
  cases outcome with
  | ok _ => simp
  | error e => cases e <;> simp

/-- To kill a process and to wait for it takes no time. -/
private theorem exec_killAndWait (alive : w.exit? pid = some none) (lasts : w₀.Lasts d w) :
    ∃ w', (do Sim.kill pid; Sim.wait pid none : Sim Unit).exec w = (.ok (), w') ∧ w.Sends w' [(pid, Signal.kill)] ∧
      w₀.Lasts d w' ∧ Sim.hasEnded pid w' = true := by
  obtain ⟨code, gone⟩ := Sim.exit?_of_kill alive
  have killing := Sim.kill_passes alive
  have lasts₁ : w₀.Lasts d ((Sim.kill pid).exec w).2 := by
    refine lasts.passes killing (by rw [Sim.exec_kill_of_alive alive]; rfl) fun e member => ?_
    simp only [List.mem_cons, List.not_mem_nil, or_false] at member
    rcases member with rfl | rfl <;> exact nofun
  have killed : (Sim.kill pid).exec w = (.ok (), ((Sim.kill pid).exec w).2) := by rw [Sim.exec_kill_of_alive alive]
  generalize ((Sim.kill pid).exec w).2 = w₁ at gone killing lasts₁ killed
  have ended := hasEnded_of_exit? gone
  have instant := Sim.Brisk.wait ended w₁ (.refl w₁)
  obtain ⟨exits, waiting, onlyExits⟩ := Sim.wait_passes pid none w₁
  have settled := (Instant.emit ⟨rfl, rfl⟩ w₁).trans (.settle (w₁.emit (.waited pid none)))
  have waited := Sim.exec_wait_of_settled (settled.gone pid ended)
  refine ⟨_, ?_, ?_, lasts₁.instant instant, instant.gone pid ended⟩
  · rw [Sim.exec_bind, killed]
    exact waited.trans (by rw [waited])
  · refine Sends.trans ⟨_, killing, rfl⟩ (.silent waiting fun e member => ?_)
    rcases List.mem_cons.mp member with rfl | later
    · rfl
    · exact (Event.silent_of_isExit (onlyExits e later)).signal

/-- A process is waited for by the deadline, and is killed if it lives then. -/
private theorem exec_awaitOrKill (exact : w₀.Exact span) (lasts : w₀.Lasts (w₀.clock + span) w) (h : Handle)
    (pid : Nat) : ∃ w', (waitOrKill (w₀.clock + span) [pid]).exec h w = (.ok (), h, w') ∧
      w.Sends w' ((living [(pid, w.leftUntil (w₀.clock + span))]).map (·, Signal.kill)) ∧
      w₀.Lasts (w₀.clock + span) w' ∧ Sim.hasEnded pid w' = true ∧
      ∀ q, (w'.leftUntil (w₀.clock + span)).exit? q = some none →
        (w.leftUntil (w₀.clock + span)).exit? q = some none := by
  obtain ⟨exits, waiting, onlyExits⟩ := Sim.wait_passes pid (some (max 0 (w₀.clock + span - w.clock))) w
  have silent := Sends.silent waiting fun e member => by
    rcases List.mem_cons.mp member with rfl | later
    · rfl
    · exact (Event.silent_of_isExit (onlyExits e later)).signal
  obtain ⟨v, within, ⟨ran, ended, same⟩ | ⟨ran, alive, -, same⟩⟩ := Sim.exec_wait_by exact lasts pid
  all_goals rw [ran] at silent
  · have notLeft : (w.leftUntil (w₀.clock + span)).exit? pid ≠ some none := by
      rw [← exit?_of_unseen same]
      exact ended ∘ alive_of_leftUntil
    rw [living_cons_of_not_alive notLeft]
    refine ⟨v, ?_, silent, within, hasEnded_iff.mpr ended, fun q alive => exit?_of_unseen same q ▸ alive⟩
    unfold waitOrKill
    rw [Owning.exec_bind, Owning.exec_lift, Sim.exec_attempt, Sim.exec_bind, exec_remaining]
    dsimp only [Option.map_some]
    rw [ran]
    rfl
  · rw [living_cons_of_alive (exit?_of_unseen same pid ▸ alive)]
    -- What is told of it goes to the log only.
    have told (line : LogLine) : v.Sends { v with log := line :: v.log } [] :=
      .silent (passes_of_same rfl rfl rfl rfl rfl rfl rfl) (by simp)
    obtain ⟨w', killed, sends, lasts', gone⟩ := exec_killAndWait (w := { v with log :=
      ⟨h.logger, .warning, "pid " ++ Text.ofNat pid ++ " ignored SIGTERM, killing"⟩ :: v.log })
      alive (within.instant (.of_same rfl rfl rfl rfl rfl rfl))
    have whole := (told _).trans sends
    refine ⟨w', ?_, silent.trans whole, lasts', gone, fun q alive => ?_⟩
    · unfold waitOrKill
      rw [Owning.exec_bind, Owning.exec_lift, Sim.exec_attempt, Sim.exec_bind, exec_remaining]
      dsimp only [Option.map_some]
      rw [ran]
      rw [Sim.exec_bind] at killed
      simp only [say, Owning.exec_bind, Owning.exec_own, Owning.exec_lift, Sim.exec_note]
      generalize (Sim.kill pid).exec _ = result at killed ⊢
      obtain ⟨_ | _, w₁⟩ := result
      · cases killed
      · dsimp only at killed ⊢
        rw [killed]
        rfl
    · rw [← exit?_of_unseen same]
      exact whole.alive (alive_of_leftUntil alive)

/-- So are several, one after the other; and those that are killed are alive at the deadline also in the system that is
left alone from the beginning. -/
theorem exec_waitOrKill (exact : w₀.Exact span) (h : Handle) (pids : List Nat) : ∀ {w : World},
    w₀.Lasts (w₀.clock + span) w → ∃ w', (waitOrKill (w₀.clock + span) pids).exec h w = (.ok (), h, w') ∧
      w.Sends w' ((living (awaiting (w₀.clock + span) h w pids)).map (·, Signal.kill)) ∧
      w₀.Lasts (w₀.clock + span) w' ∧ (∀ pid ∈ pids, Sim.hasEnded pid w' = true) ∧
      ∀ pid ∈ living (awaiting (w₀.clock + span) h w pids),
        (w.leftUntil (w₀.clock + span)).exit? pid = some none := by
  induction pids with
  | nil => exact fun {w} lasts => ⟨w, rfl, .refl w, lasts, nofun, nofun⟩
  | cons pid rest ih =>
    intro w lasts
    obtain ⟨w₁, awaited, one, lasts₁, ended, left⟩ := exec_awaitOrKill exact lasts h pid
    obtain ⟨w', ran, others, lasts', gone, before⟩ := ih lasts₁
    have turns : awaiting (w₀.clock + span) h w (pid :: rest) =
        [(pid, w.leftUntil (w₀.clock + span))] ++ awaiting (w₀.clock + span) h w₁ rest := by
      rw [awaiting, awaited]
      rfl
    rw [turns, living_append, List.map_append]
    refine ⟨w', ?_, one.trans others, lasts', fun q member => ?_, fun q member => ?_⟩
    · rw [waitOrKill_cons, Owning.exec_bind, awaited]
      exact ran
    · rcases List.mem_cons.mp member with rfl | later
      · exact others.gone ended
      · exact gone q later
    · rcases List.mem_append.mp member with first | later
      · obtain ⟨rfl, alive⟩ := mem_living_singleton.mp first
        exact alive
      · exact left q (before q later)

/-! ## Stopping -/

variable {grace : Time}

/-- **Stopping escalates exactly where it must.** Whatever the processes of a handle do, stopping it asks exactly those
to end that are alive in their turns. None of these had ended before, and who is not asked has ended by itself when
all have had their turns, which takes no time. Then exactly those are killed that are alive in their turns at the
deadline. None of these would have ended by the deadline if all had been left alone; so who ends in time is not killed,
wherever it stands among the others.

Whether the call returns then, or raises what could not be delivered: the ends of the handle are closed, its processes
are reaped, its pumps are done, and it is not later than the deadline. -/
theorem stop_escalates (ready : h.Ready w) (exact : w.Exact grace) (nonneg : 0 ≤ grace) :
    ∃ w₁ outcome h' w' events, terminate.exec h w = (.ok (), h, w₁) ∧
      (stop (.ok grace)).exec h w = (outcome, h', w') ∧ w'.events = w.events ++ events ∧
      signalsIn events = (living (asking w h.pids)).map (·, Signal.terminate) ++
        (living (awaiting (w.clock + grace) h w₁ h.pids)).map (·, Signal.kill) ∧
      (∀ pid ∈ living (asking w h.pids), w.exit? pid = some none) ∧
      (∀ pid ∈ h.pids, pid ∈ living (asking w h.pids) ∨ Sim.hasEnded pid w₁ = true) ∧ w₁.clock = w.clock ∧
      (∀ pid ∈ living (awaiting (w.clock + grace) h w₁ h.pids),
        (w₁.leftUntil (w.clock + grace)).exit? pid = some none) ∧
      (outcome = .ok (h'.statusesIn w') ∨ outcome = .error (.system .brokenPipe)) ∧ h'.processes = h.processes ∧
      h'.Over w' ∧ w.Lasts (w.clock + grace) w' := by
  obtain ⟨w₁, asked, asks, clock, lasts₁, before, all⟩ :=
    exec_eachAlive_terminate h.pids ready.known (.refl (exact.early nonneg))
  obtain ⟨w₂, awaited, kills, lasts₂, ended, left⟩ := exec_waitOrKill exact h h.pids lasts₁
  have terminated : terminate.exec h w = (.ok (), h, w₁) := by
    rw [terminate, Owning.exec_bind, Owning.exec_own]
    dsimp only
    rw [Owning.exec_lift, asked]
  have along₁ : h.Along w h w₁ := by
    have along := Tended.terminate h w ready.along
    rwa [terminated] at along
  have along₂ : h.Along w h w₂ := by
    have along := Tended.waitOrKill (w.clock + grace) h.pids h w₁ along₁
    rwa [awaited] at along
  have ready₂ := ready.stays along₂
  have allEnded : w₂.AllEnded h.pids := by
    intro pid member
    obtain ⟨state, found⟩ := Option.isSome_iff_exists.mp (ready₂.known pid member)
    cases state with
    | none => exact absurd found (hasEnded_iff.mp (ended pid member))
    | some code => exact ⟨code, found⟩
  -- Nothing is left to be waited for, so that closing takes no time and comes to its end.
  have spent : h.Spent w₂ := ⟨ended, fun p member runs => (ready₂.attended p member).inputEnded runs allEnded⟩
  obtain ⟨undelivered, w₃, -, closing, tended, broken⟩ := ready₂.along.exec_close ready₂.sound false
  have along₃ : h.Along w₂ h.bare w₃ := tended
  obtain ⟨outcome, h', w', finished, along₄, come⟩ := (ready₂.stays along₃).exec_awaitEnd h.endOf_bare undelivered
  have closed : (close false).exec h w₂ = (outcome, h', w') := closing.trans finished
  have stopped : (stop (.ok grace)).exec h w = (outcome, h', w') := by
    rw [stop, Owning.exec_bind, terminated]
    simp only [Owning.exec_bind, Owning.exec_lift, Sim.exec_world, Sim.exec_ofExcept, Owning.exec_own, clock, awaited,
      closed]
  have instant := (brisk_close false h w₂ ⟨.refl w₂, spent⟩).1
  rw [closed] at instant
  obtain ⟨events, passes, signals⟩ := asks.trans kills
  obtain ⟨last, trace, silent⟩ := instant.silent
  have whole := Tended.trans along₃ along₄
  obtain ⟨_, proceeds⟩ := ready₂.proceeds whole
  obtain ⟨told, isOver⟩ := come.resolve_left fun stuck =>
    stuck.2.not_allEnded (along₃.pids ▸ allEnded.proceeds proceeds)
  refine ⟨w₁, outcome, h', w', events ++ last, terminated, stopped, ?_, ?_, before, all, clock, left, ?_,
    whole.processes, isOver, lasts₂.instant instant⟩
  · rw [trace, passes.trace, List.append_assoc]
  · rw [signalsIn_append, signals, Event.signalsIn_of_silent silent, List.append_nil]
  · cases undelivered with
    | none => exact .inl told
    | some e => exact .inr (broken e rfl ▸ told)

/-! ### Three commands and a pipe -/

/-- The command of a program of one letter in a graph. -/
private def leafOf (number : Nat) (program : Char) : Graph := .leaf number (Engine.letterItem program) {}

/-- A handle on a graph that was started in a new system with some programs. -/
private def startIn (programs : List (Char × Program)) (graph : Graph) : Except Failure Handle × Engine × World :=
  (Engine.spawn graph.toItem {}).exec {} { programs := programs.map fun (c, program) => ([.char c], program) }

private theorem ready_of_startIn {programs : List (Char × Program)} {graph : Graph} {e' : Engine}
    (started : startIn programs graph = (.ok h, e', w)) : h.Ready w := by
  have sound : World.Sound { programs := programs.map fun (c, program) => ([.char c], program) } :=
    .ofNew rfl rfl (Nat.le_of_ble_eq_true rfl) rfl
  obtain ⟨_, _, _, _, _, _, succeeds⟩ := Engine.spawn_ok sound started
  exact succeeds.ready sound started

/-- Whether the clock stands at the beginning, and all processes start at whole seconds. -/
private def isPunctual (w : World) : Bool := decide (w.clock = 0) && w.processes.all fun p => decide p.readyAt.IsWhole

private theorem exact_of_isPunctual (punctual : isPunctual w = true) : w.Exact (Time.seconds 2) := by
  simp only [isPunctual, Bool.and_eq_true, List.all_eq_true, decide_eq_true_eq] at punctual
  obtain ⟨clock, starts⟩ := punctual
  apply Exact.of_whole <;> first | exact starts | (try rw [clock]); decide +kernel

/-- Three commands, started together: `a` never ends and does not care to be asked, `b` never ends by itself, and `c`
does not care to be asked and ends after a second. -/
private def motley : Except Failure Handle × Engine × World :=
  startIn [('a', { reads := .nothing, hangs := true, trapsTerminate := true }),
    ('b', { reads := .nothing, hangs := true }),
    ('c', { reads := .nothing, trapsTerminate := true, delay := Time.seconds 1 })]
    (.group 4 (.own 4) [leafOf 1 'a', leafOf 2 'b', leafOf 3 'c'] {})

/-- In two seconds all three are asked to end and only `a` is killed, though `c` is waited for when the two seconds are
over. -/
theorem stop_motley : ∃ handle e' w₀ outcome h' w' events, motley = (.ok handle, e', w₀) ∧
    (stop (.ok (Time.seconds 2))).exec handle w₀ = (outcome, h', w') ∧ w'.events = w₀.events ++ events ∧
    signalsIn events = [(1001, Signal.terminate), (1002, Signal.terminate), (1003, Signal.terminate),
      (1001, Signal.kill)] ∧ h'.Over w' ∧ w'.clock ≤ w₀.clock + Time.seconds 2 := by
  obtain ⟨handle, e', w₀, started, tested⟩ := Owning.ok_of_gives motley (fun h _ w =>
    isPunctual w && decide (living (asking w h.pids) = [1001, 1002, 1003]) &&
      decide (living (awaiting (w.clock + Time.seconds 2) h (terminate.exec h w).2.2 h.pids) = [1001]))
    (by decide +kernel)
  simp only [Bool.and_eq_true, decide_eq_true_eq] at tested
  obtain ⟨⟨punctual, asked⟩, killed⟩ := tested
  obtain ⟨w₁, outcome, h', w', events, terminated, stopped, trace, signals, -, -, -, -, -, -, isOver, lasts⟩ :=
    stop_escalates (ready_of_startIn started) (exact_of_isPunctual punctual) (by decide +kernel)
  rw [terminated] at killed
  rw [asked, killed] at signals
  exact ⟨handle, e', w₀, outcome, h', w', events, started, stopped, trace, signals, isOver, lasts.stands.early⟩

/-- A command that never ends by itself, and one that passes on what it gets from it. -/
private def piped : Except Failure Handle × Engine × World :=
  startIn [('a', { reads := .nothing, hangs := true }), ('b', { out := [.input .raw] })]
    (.pipe 3 (leafOf 1 'a') (leafOf 2 'b') {})

/-- Both are alive when they are stopped, and only the first is asked to end: when the second has its turn, it has got
the end of its input and has ended. -/
theorem asked_to_end_in_turn : ∃ handle e' w₀ outcome h' w' events, piped = (.ok handle, e', w₀) ∧ handle.Ready w₀ ∧
    w₀.Exact (Time.seconds 2) ∧ handle.pids = [1001, 1002] ∧ w₀.settle.exit? 1001 = some none ∧
    w₀.settle.exit? 1002 = some none ∧ (stop (.ok (Time.seconds 2))).exec handle w₀ = (outcome, h', w') ∧
    w'.events = w₀.events ++ events ∧ signalsIn events = [(1001, Signal.terminate)] := by
  obtain ⟨handle, e', w₀, started, tested⟩ := Owning.ok_of_gives piped (fun h _ w =>
    isPunctual w && decide (h.pids = [1001, 1002]) &&
      decide (w.settle.exit? 1001 = some none) && decide (w.settle.exit? 1002 = some none) &&
      decide (((stop (.ok (Time.seconds 2))).exec h w).2.2.events.take w.events.length = w.events) &&
      decide (signalsIn (((stop (.ok (Time.seconds 2))).exec h w).2.2.events.drop w.events.length)
        = [(1001, Signal.terminate)])) (by decide +kernel)
  simp only [Bool.and_eq_true, decide_eq_true_eq] at tested
  obtain ⟨⟨⟨⟨⟨punctual, pids⟩, first⟩, second⟩, before⟩, signals⟩ := tested
  generalize stopped : (stop (.ok (Time.seconds 2))).exec handle w₀ = result at before signals
  obtain ⟨outcome, h', w'⟩ := result
  dsimp only at before signals
  have split := List.take_append_drop w₀.events.length w'.events
  rw [before] at split
  exact ⟨handle, e', w₀, outcome, h', w', _, started, ready_of_startIn started, exact_of_isPunctual punctual, pids,
    first, second, stopped, split.symm, signals⟩

end Handle

end Pipework
