import Pipework.Proofs.Capture.Cleanup
import Pipework.Proofs.Engine.CallerEnds

/-!
# What reading lines leaves behind

`readLines` takes the reader of stdout out of the handle and reads with it by itself. `Streams` lists what this
can come to. However the reading ends, its reader is closed first, and then the handle is carried to its end:
it is finished if no line is left, and else it is discarded. Only where the coding has no name that is known is
the reader given up without being closed: then its descriptor, and no other, is still open in the end
(`Streams.unnamed`).
-/

namespace Pipework

open Custody World Handle

/-- The failure of an outcome, if it is one. -/
def failureOf {α : Type} : Except Failure α → Option Failure
  | .error e => some e
  | .ok _ => none

/-- Reading lines leaves every descriptor with its owner. -/
theorem Custody.Within.takeLines {c : Custody} {f : Owner → Option Nat} {o : Owner} {r : Reader}
    (sound : c.Sound) (holds : f o = r.holding) (keepsEnds : Bool) (limit : Option Nat) (steps : Nat) :
    (Engine.takeLines r keepsEnds limit steps).Preserves fun _ w => c.Within f w := by
  induction steps generalizing limit with
  | zero => exact .pure _
  | succ steps ih =>
    unfold Engine.takeLines
    split
    · exact .pure _
    · refine .bind .own fun s => ?_
      split
      · exact .bind (.change fun _ _ => id) fun _ => ih _
      · split
        · exact .pure _
        · refine .bind (.lift fun _ => readSome sound holds _) fun piece => ?_
          split
          · exact .throw _
          · exact .bind (.change fun _ _ => id) fun _ => ih _

namespace Engine

section Streaming

variable (graph : Item) (codingName : Option Text) (keepsEnds : Bool) (limit : Option Nat)
variable (e : Engine) (w : World)

/-- The graph is started, and lines are read from its stdout with a coding of the name that is given. -/
structure Reads (handle : Handle) (r : Reader) (ended : Except Failure Bool) (s : LineState) (w₂ : World) :
    Prop where
  output : handle.stdout = some r
  began : ∃ coding e' w₁, Coding.named (codingName.getD hostCoding) = .ok coding ∧
    (spawn graph { stdout := endpoint }).exec e w = (.ok handle, e', w₁) ∧
    (takeLines r keepsEnds limit (2 * everything r w₁ + 4)).exec { lines := { decoder := ⟨coding, .none⟩ } } w₁
      = (ended, s, w₂)

/-- What reading lines can come to, with the lines that were handed out and the failure that ended it. -/
inductive Streams : List Text → Option Failure → World → Prop
  /-- No line is asked for, and nothing happens. -/
  | unasked (nothing : limit = some 0) : Streams [] none w
  /-- The start fails, and nothing of it is left. -/
  | unstarted {failure : Failure} {e' : Engine} {w' : World} {events : List Event}
      (spawned : (spawn graph { stdout := endpoint }).exec e w = (.error failure, e', w'))
      (nothing : w.NothingLeft w' events) : Streams [] (some failure) w'
  /-- There is no coding of that name. The processes are killed before anything is waited for, and nothing of the
  handle is left; but the reader is open, the only one of the descriptors that the start opened. -/
  | unnamed {handle h' : Handle} {r : Reader} {failure : Failure} {e' : Engine} {w₁ w₂ w' : World}
      {events killing rest : List Event}
      (spawned : (spawn graph { stdout := endpoint }).exec e w = (.ok handle, e', w₁))
      (output : handle.stdout = some r)
      (unknown : Coding.named (codingName.getD hostCoding) = .error failure)
      (killed : w₁.KillsAll w₂ handle.pids killing) (later : w'.events = w₂.events ++ rest)
      (processes : h'.processes = handle.processes) (isOver : h'.Over w')
      (trace : w'.events = w.events ++ events)
      (lost : r.descriptor ∈ openedBy events ∧ r.descriptor ∉ closedBy events)
      (descriptors : w'.descriptors.map (·.1) = w.descriptors.map (·.1) ++ [r.descriptor]) :
      Streams [] (some failure) w'
  /-- The caller stops, or reading fails. The reader is closed, and the processes are killed before anything is
  waited for. How they ended is not looked at. -/
  | stopped {handle h' : Handle} {r : Reader} {ended : Except Failure Bool} {s : LineState} {w₂ w₃ w' : World}
      {killing rest : List Event}
      (reads : Reads graph codingName keepsEnds limit e w handle r ended s w₂)
      (early : ended ≠ .ok true)
      (killed : (w₂.shut r.descriptor).KillsAll w₃ handle.pids killing) (later : w'.events = w₃.events ++ rest)
      (cleared : Cleared w handle h' w') : Streams s.taken (failureOf ended) w'
  /-- No line is left, but a process never ends, and is waited for. -/
  | hangs {handle : Handle} {r : Reader} {s : LineState} {w₂ w' : World}
      (reads : Reads graph codingName keepsEnds limit e w handle r (.ok true) s w₂)
      (hung : w'.Hung handle.pids) : Streams s.taken (some .deadlock) w'
  /-- No line is left. The reader is closed, the processes are awaited, and the first failure counts that there
  is to report: what closing stdin could not deliver, the error of a pump, or a command that failed. -/
  | exhausted {handle h' : Handle} {r : Reader} {s : LineState} {undelivered : Option Failure} {w₂ w' : World}
      (reads : Reads graph codingName keepsEnds limit e w handle r (.ok true) s w₂)
      (flushed : ((closeEndpoint .stdin).exec (handle.without .stdout) (w₂.shut r.descriptor)).1 = .ok undelivered)
      (cleared : Cleared w handle h' w') : Streams s.taken (failureOf (verdict undelivered h' w')) w'

end Streaming

section Started

variable {graph : Item} {codingName : Option Text} (keepsEnds : Bool) (limit : Option Nat) {e e' : Engine}
variable {w w₁ : World} {handle : Handle} {r : Reader}

/-- The reader of stdout is open after a start. -/
theorem exists_output (sound : w.Sound)
    (spawned : (spawn graph { stdout := endpoint }).exec e w = (.ok handle, e', w₁)) :
    ∃ r, handle.stdout = some r ∧ r.closed = false := by
  obtain ⟨_, _, _, _, _, _, succeeds⟩ := spawn_ok sound spawned
  obtain ⟨d, there⟩ := Option.isSome_iff_exists.mp (succeeds.hasEndpoint (s := .stdout) rfl)
  obtain ⟨r, output, -⟩ := Option.map_eq_some_iff.mp there
  obtain ⟨-, _, -, rfl⟩ := succeeds.reader_cases (s := .stdout) output
  exact ⟨_, output, rfl⟩

/-- Lines are taken, and then the reader is closed. The rest of the handle goes along. -/
theorem exec_takeLines_close (ready : handle.Ready w₁) (output : handle.stdout = some r)
    (isOpen : r.closed = false) (steps : Nat) (s : LineState) :
    let w₂ := ((takeLines r keepsEnds limit steps).exec s w₁).2.2
    (Pump.closeReader r).exec w₂ = (.ok (), w₂.shut r.descriptor) ∧
      handle.Along w₁ (handle.without .stdout) (w₂.shut r.descriptor) := by
  intro w₂
  have mine : heldBy handle.holding (handle.pumps ++ []) (.endpoint .stdout) = r.holding := by
    simp [heldBy, Handle.holding, output]
  have run : Custody.Run (handle.custody [] w₁) (handle.custody [] w₂) :=
    Within.takeLines ready.sound mine keepsEnds limit steps s w₁ .refl
  obtain ⟨w₃, closed, shut⟩ := run.closeReader ready.sound mine
  have known := run.isOpen ready.sound (mine.trans (Reader.holding_of_open isOpen))
  rw [Reader.exec_close isOpen known] at closed
  obtain rfl : w₂.shut r.descriptor = w₃ := congrArg (·.2.2) closed
  refine ⟨?_, Tended.without { ready.along with run } shut⟩
  simp only [Pump.closeReader, Sim.exec_bind, Sim.exec_runOn, Reader.exec_close isOpen known, Sim.exec_ofExcept]

/-- What follows a start when the coding is known. -/
private theorem streams_known {coding : Coding} (sound : w.Sound)
    (spawned : (spawn graph { stdout := endpoint }).exec e w = (.ok handle, e', w₁))
    (output : handle.stdout = some r) (isOpen : r.closed = false)
    (named : Coding.named (codingName.getD hostCoding) = .ok coding) : ∃ lines failure w',
    (do
      let steps := 2 * everything r (← world) + 4
      let (ended, s) ← (takeLines r keepsEnds limit steps).runOn { lines := { decoder := ⟨coding, .none⟩ } }
      Pump.closeReader r
      let (ending, _) ← (match ended with
        | .ok true => finish
        | _ => discard).runOn (handle.without .stdout)
      match ending, ended with
      | .error e, _ => return (s.taken, some e)
      | .ok (), .error e => return (s.taken, some e)
      | .ok (), .ok _ => return (s.taken, none) : Owning Engine (List Text × Option Failure)).exec e' w₁
        = (.ok (lines, failure), e', w') ∧
    Streams graph codingName keepsEnds limit e w lines failure w' := by
  obtain ⟨_, _, _, _, _, _, succeeds⟩ := spawn_ok sound spawned
  have ready := succeeds.ready sound spawned
  obtain ⟨closed, along⟩ := exec_takeLines_close keepsEnds limit ready output isOpen
    (2 * everything r w₁ + 4) { lines := { decoder := ⟨coding, .none⟩ } }
  generalize took : (takeLines r keepsEnds limit (2 * everything r w₁ + 4)).exec
    { lines := { decoder := ⟨coding, .none⟩ } } w₁ = result at closed along
  obtain ⟨ended, s, w₂⟩ := result
  have reads : Reads graph codingName keepsEnds limit e w handle r ended s w₂ :=
    ⟨output, coding, e', w₁, named, spawned, took⟩
  have ready₂ := ready.stays along
  simp only [Owning.exec_bind, Owning.exec_lift, Sim.exec_world, Owning.exec_liftRunOn, took, closed]
  by_cases whole : ended = .ok true
  · subst whole
    obtain ⟨undelivered, ending, h', w', flushed, finished, along', ended⟩ := ready₂.exec_finish
    simp only [finished]
    rcases ended with ⟨rfl, hung⟩ | ⟨isOver, rfl⟩
    · exact ⟨_, _, _, rfl, .hangs reads (along.pids ▸ hung)⟩
    · have cleared := succeeds.cleared sound spawned (Tended.trans along along') isOver
      have exhausted := Streams.exhausted reads flushed cleared
      cases result : verdict undelivered h' w' with
      | error failure => exact ⟨_, _, _, rfl, by rwa [result] at exhausted⟩
      | ok _ => exact ⟨_, _, _, rfl, by rwa [result] at exhausted⟩
  · obtain ⟨h', w₃, w', killing, rest, discarded, along', isOver, killed, later⟩ := ready₂.exec_discard
    rw [along.pids] at killed
    have stopped := Streams.stopped reads whole killed later
      (succeeds.cleared sound spawned (Tended.trans along along') isOver)
    cases ended with
    | error failure =>
      simp only [discarded]
      exact ⟨_, _, _, rfl, stopped⟩
    | ok exhausted =>
      cases exhausted with
      | true => exact absurd rfl whole
      | false =>
        simp only [discarded]
        exact ⟨_, _, _, rfl, stopped⟩

/-- When the reader is given up, the rest of the handle is ready as it is; only the reader has no owner. -/
private theorem ready_without (ready : handle.Ready w₁) (output : handle.stdout = some r)
    (isOpen : r.closed = false) : (handle.without .stdout).Ready w₁ ∧ ∀ d,
      ((handle.without .stdout).custody [] w₁).Holds d ↔
        (handle.custody [] w₁).Holds d ∧ d ≠ r.descriptor := by
  have mine : (handle.custody [] w₁).held (.endpoint .stdout) = some r.descriptor := by
    simp [custody, heldBy, Handle.holding, output, Reader.holding_of_open isOpen]
  have fewer (o : Owner) (d : Nat) : ((handle.without .stdout).custody [] w₁).held o = some d ↔
      (handle.custody [] w₁).held o = some d ∧ d ≠ r.descriptor := by
    change heldBy (handle.without .stdout).holding (handle.pumps ++ []) o = some d ↔ _
    rw [holding_without, heldBy_update]
    by_cases same : o = .endpoint .stdout
    · subst same
      rw [Function.update_self, mine]
      simp [eq_comm]
    · rw [Function.update_of_ne same]
      exact ⟨fun holds => ⟨holds, fun equal => same (ready.sound.apart _ _ d holds (equal ▸ mine))⟩, (·.1)⟩
  refine ⟨⟨⟨fun o o' d first second => ?_, fun o d holds => ?_⟩, ready.settled, ready.attended, ready.known⟩,
    fun d => ?_⟩
  · exact ready.sound.apart o o' d ((fewer o d).mp first).1 ((fewer o' d).mp second).1
  · exact ready.sound.isOpen o d ((fewer o d).mp holds).1
  · constructor
    · rintro ⟨o, holds⟩
      exact ⟨⟨o, ((fewer o d).mp holds).1⟩, ((fewer o d).mp holds).2⟩
    · rintro ⟨⟨o, holds⟩, other⟩
      exact ⟨o, (fewer o d).mpr ⟨holds, other⟩⟩

/-- What follows a start when the coding is not known. -/
private theorem streams_unknown {failure : Failure} (sound : w.Sound)
    (spawned : (spawn graph { stdout := endpoint }).exec e w = (.ok handle, e', w₁))
    (output : handle.stdout = some r) (isOpen : r.closed = false)
    (unknown : Coding.named (codingName.getD hostCoding) = .error failure) : ∃ h' w',
    discard.exec (handle.without .stdout) w₁ = (.ok (), h', w') ∧
      Streams graph codingName keepsEnds limit e w [] (some failure) w' := by
  obtain ⟨_, _, _, _, _, _, succeeds⟩ := spawn_ok sound spawned
  have ready := succeeds.ready sound spawned
  obtain ⟨ready₂, holds_iff⟩ := ready_without ready output isOpen
  obtain ⟨h', w₂, w', killing, rest, discarded, along, isOver, killed, later⟩ := ready₂.exec_discard
  obtain ⟨first, since⟩ := (succeeds.handed_run sound spawned).1.since (succeeds.handed_sound sound)
  obtain ⟨second, since₂⟩ := along.run.since ready₂.sound
  obtain ⟨before, account, left⟩ := succeeds.account_since sound since
  obtain ⟨account, open_iff⟩ := since₂.account account sound fun d holds =>
    (left d).mpr ((holds_iff d).mp holds).1
  have mine : (handle.custody [] w₁).Holds r.descriptor :=
    ⟨.endpoint .stdout, by simp [custody, heldBy, Handle.holding, output, Reader.holding_of_open isOpen]⟩
  have isLeft (d : Nat) : d ∈ leftOpenBy (before ++ first ++ second) ↔ d = r.descriptor := by
    rw [open_iff, left, holds_iff]
    constructor
    · rintro ⟨holds, closed⟩
      exact Classical.byContradiction fun other => isOver.nobody along.pumps d (closed ⟨holds, other⟩)
    · rintro rfl
      exact ⟨mine, fun holds => absurd rfl holds.2⟩
  have onlyReader : leftOpenBy (before ++ first ++ second) = [r.descriptor] := by
    have distinct : (leftOpenBy (before ++ first ++ second)).Nodup := account.nodup_opened.filter _
    exact List.perm_singleton.mp ((List.perm_ext_iff_of_nodup distinct (by simp)).mpr
      fun d => (isLeft d).trans List.mem_singleton.symm)
  have lost := List.mem_filter.mp ((isLeft r.descriptor).mpr rfl)
  refine ⟨h', w', discarded, .unnamed spawned output unknown killed later along.processes isOver account.trace
    ⟨lost.1, by simpa using lost.2⟩ ?_⟩
  exact account.map_fst_descriptors.trans (by rw [onlyReader])

end Started

/-- **Reading lines cleans up**, but for the reader when the coding is not known: whatever is read with whatever
coding, and however much of it, reading lines comes to one of the ends that `Streams` lists. -/
theorem reading_lines_cleans_up {w : World} (sound : w.Sound) (e : Engine) (graph : Item)
    (codingName : Option Text) (keepsEnds : Bool) (limit : Option Nat) : ∃ lines failure e' w',
    (readLines graph codingName keepsEnds limit).exec e w = (.ok (lines, failure), e', w') ∧
      Streams graph codingName keepsEnds limit e w lines failure w' := by
  unfold readLines
  by_cases nothing : limit = some 0
  · rw [if_pos nothing]
    exact ⟨_, _, _, _, rfl, .unasked nothing⟩
  rw [if_neg nothing, Owning.exec_bind, Owning.exec_attempt]
  generalize spawned : (spawn graph { stdout := endpoint }).exec e w = started
  obtain ⟨outcome, e', w₁⟩ := started
  cases outcome with
  | error failure =>
    obtain ⟨_, left⟩ := nothing_of_spawn_failed sound spawned
    exact ⟨_, _, _, _, rfl, .unstarted spawned left⟩
  | ok handle =>
    obtain ⟨r, output, isOpen⟩ := exists_output sound spawned
    simp only [detachOutput, output]
    cases named : Coding.named (codingName.getD hostCoding) with
    | error failure =>
      obtain ⟨h', w', discarded, streams⟩ := streams_unknown keepsEnds limit sound spawned output isOpen named
      refine ⟨[], some failure, e', w', ?_, streams⟩
      change (discard.runOn (handle.without .stdout) >>= _ : Owning Engine _).exec e' w₁ = _
      simp only [Owning.exec_bind, Owning.exec_liftRunOn, discarded, Owning.exec_pure]
    | ok coding =>
      obtain ⟨lines, failure, w', ran, streams⟩ := streams_known keepsEnds limit sound spawned output isOpen named
      exact ⟨lines, failure, e', w', ran, streams⟩

/-! ## A program that writes -/

/-- A new system with a program that writes some bytes. -/
def sayingWorld (output : Bytes) : World :=
  { programs := [([.char 'a'], { out := [.bytes output], reads := .nothing })] }

theorem sayingWorld_sound (output : Bytes) : (sayingWorld output).Sound :=
  .ofNew rfl rfl (by simp [sayingWorld]) rfl

/-- One of two lines is taken, and the program is left behind without a trace. -/
theorem reading_a_letter_cleans_up : ∃ e' w',
    (readLines (letterItem 'a') none false (some 1)).exec {} (sayingWorld [120, 10, 121])
      = (.ok ([[.char 'x']], none), e', w') ∧
    Streams (letterItem 'a') none false (some 1) {} (sayingWorld [120, 10, 121]) [[.char 'x']] none w' := by
  have answers : (((readLines (letterItem 'a') none false (some 1)).exec {}
      (sayingWorld [120, 10, 121])).1.toOption.any fun answer => answer.1 == [[.char 'x']] && answer.2.isNone) = true := by
    decide +kernel
  obtain ⟨lines, failure, e', w', ran, streams⟩ :=
    reading_lines_cleans_up (sayingWorld_sound [120, 10, 121]) {} (letterItem 'a') none false (some 1)
  rw [ran] at answers
  obtain ⟨rfl, rfl⟩ : lines = [[.char 'x']] ∧ failure = none := by simpa [Except.toOption] using answers
  exact ⟨e', w', ran, streams⟩

/-- Whether a reading ended at a coding that is not known, and something is still open. -/
private def leavesOpen (answer : Except Failure (List Text × Option Failure)) (w : World) : Bool :=
  match answer with
  | .ok ([], some (.unknownCoding _)) => (openedBy w.events).any fun d => !(closedBy w.events).contains d
  | _ => false

/-- With a coding of no known name the reader is open when everything is over: nothing has closed it. -/
theorem unknown_coding_leaves_reader_open : ∃ name e' w' d,
    (readLines (letterItem 'a') (some [.char 'x']) false none).exec {} (sayingWorld [])
      = (.ok ([], some (.unknownCoding name)), e', w') ∧
    d ∈ openedBy w'.events ∧ d ∉ closedBy w'.events := by
  have answers : leavesOpen ((readLines (letterItem 'a') (some [.char 'x']) false none).exec {} (sayingWorld [])).1
      ((readLines (letterItem 'a') (some [.char 'x']) false none).exec {} (sayingWorld [])).2.2 = true := by
    decide +kernel
  generalize (readLines (letterItem 'a') (some [.char 'x']) false none).exec {} (sayingWorld []) = result
    at answers
  obtain ⟨answer, e', w'⟩ := result
  unfold leavesOpen at answers
  split at answers
  · next ended =>
    dsimp only at ended answers
    subst ended
    obtain ⟨d, opened, unclosed⟩ := List.any_eq_true.mp answers
    exact ⟨_, _, _, d, rfl, opened, by simpa using unclosed⟩
  · cases answers

end Engine

end Pipework
