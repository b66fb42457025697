import Pipework.Proofs.Custody.Steps
import Pipework.Proofs.Exchange.Draining
import Pipework.Proofs.Handle.Looking

/-!
# What the owner of a descriptor does with it

Watching and ending processes is no concern of a descriptor. Reading and writing are steps of the owner, and
closing is the step that ends its ownership, also where the last flush fails. Each of these is a run of
custody from any moment at which the descriptor has that owner.
-/

namespace Pipework

/-- The descriptor that a reader holds. -/
def Reader.holding (r : Reader) : Option Nat := if r.closed then none else some r.descriptor

/-- The descriptor that a writer holds. -/
def Writer.holding (r : Writer) : Option Nat := if r.closed then none else some r.descriptor

theorem Reader.holding_of_open {r : Reader} (isOpen : r.closed = false) : r.holding = some r.descriptor := by
  simp [holding, isOpen]

theorem Writer.holding_of_open {r : Writer} (isOpen : r.closed = false) : r.holding = some r.descriptor := by
  simp [holding, isOpen]

/-- Writing only holds something back, or is refused. -/
theorem Writer.exec_write_cases (r : Writer) (data : Bytes) (w : World) : ∃ outcome r',
    (write data).exec r w = (outcome, r', w) ∧ r'.descriptor = r.descriptor ∧ r'.holding = r.holding := by
  cases isClosed : r.closed with
  | true =>
    refine ⟨.error (.misuse .writeToClosed), r, ?_, rfl, rfl⟩
    simp [write, checkOpen, Owning.exec_bind, isClosed]
  | false => exact ⟨_, _, exec_write isClosed data w, rfl, rfl⟩

theorem Reader.exec_close {r : Reader} {w : World} (isOpen : r.closed = false)
    (known : r.descriptor ∈ w.descriptors.map (·.1)) :
    Reader.close.exec r w = (.ok (), { r with closed := true }, w.shut r.descriptor) := by
  simp only [Reader.close, Owning.exec_bind, Owning.exec_own, isOpen, Bool.false_eq_true, if_false,
    Owning.exec_change, Owning.exec_lift, Sim.exec_close known]

namespace Custody

open World

variable {c : Custody} {f : Owner → Option Nat} {o : Owner} {w w' : World} {events : List Event} {d : Nat}

/-! ## What is no concern of a descriptor -/

theorem Run.plays {entries : List (Nat × Bytes)} (run : Run c ⟨w, f⟩) (plays : w.Plays w' entries) :
    Run c ⟨w', f⟩ := by
  induction plays with
  | refl => exact run
  | tail _ acts ih => exact ih.tail (.acts (c := ⟨_, f⟩) acts)

theorem Run.aside (run : Run c ⟨w, f⟩) (proceeds : w.Proceeds w' events) (closes : closedBy events = [])
    (pipes : w'.pipes = w.pipes) : Run c ⟨w', f⟩ :=
  run.tail (.aside (c := ⟨w, f⟩) ⟨⟨events, proceeds, closes⟩, pipes⟩)

/-- A change of the clock, the memory or the log, or of what is remembered for later. -/
theorem Run.of_same (run : Run c ⟨w, f⟩) (trace : w'.trace = w.trace)
    (descriptors : w'.descriptors = w.descriptors) (retired : w'.retired = w.retired)
    (next : w'.nextDescriptor = w.nextDescriptor) (pipes : w'.pipes = w.pipes)
    (openings : w'.openings = w.openings) (processes : w'.processes = w.processes) : Run c ⟨w', f⟩ :=
  run.aside (proceeds_of_same trace descriptors retired next (by rw [pipes]) (by rw [openings]) processes)
    rfl pipes

theorem Run.emit (run : Run c ⟨w, f⟩) {e : Event} (opens : e.opens = []) (closes : e.closes = [])
    (starts : e.started? = none) (quiet : ∀ pid, e.codeOf? pid = none) : Run c ⟨w.emit e, f⟩ :=
  run.aside (proceeds_emit w opens closes starts quiet) (by simp [closedBy, closes]) rfl

theorem Run.notice (run : Run c ⟨w, f⟩) (pid : Nat) : Run c ⟨w.notice pid, f⟩ :=
  run.aside (proceeds_notice w pid) rfl rfl

/-- A step that leaves every descriptor with its owner. -/
abbrev Within (c : Custody) (f : Owner → Option Nat) (w : World) : Prop := Run c ⟨w, f⟩

namespace Within

/-- To watch processes and to end them leaves every descriptor with its owner. -/
theorem watchable : Watchable (c.Within f) where
  plays := Run.plays
  called {_ e} run control stays := by
    cases e with
    | waited | killed | terminated => exact run.emit rfl rfl rfl fun _ => rfl
    | exited => cases stays
    | _ => cases control
  notice pid run := run.notice pid
  ended run running _ := run.aside (proceeds_endProcess _ running) rfl rfl

theorem note (logger : Text) (level : Level) (message : Text) :
    (note logger level message).Preserves (c.Within f) :=
  fun _ run => run.of_same rfl rfl rfl rfl rfl rfl rfl

theorem startReaper (logger : Text) (pids : List Nat) :
    (Handle.startReaper logger pids).Preserves (c.Within f) :=
  .bind (fun _ run => run.emit rfl rfl rfl fun _ => rfl) fun _ =>
    fun _ run => run.of_same rfl rfl rfl rfl rfl rfl rfl

end Within

/-! ## What an owner does -/

section Sound

variable (sound : c.Sound)
include sound

theorem Run.isOpen (run : Run c ⟨w, f⟩) (holds : f o = some d) : d ∈ w.descriptors.map (·.1) :=
  (run.sound sound).isOpen o d holds

/-- An owner takes something out of its pipe. -/
theorem Run.take {r : Reader} (run : Run c ⟨w, f⟩) (holds : f o = r.holding) (isOpen : r.closed = false)
    {pipe : Nat} (leads : w.pipeOf? r.descriptor = some pipe) (count : Nat) :
    Run c ⟨w.consume count (.readEnd pipe), f⟩ := by
  rw [Reader.holding_of_open isOpen] at holds
  exact run.tail (.read (c := ⟨w, f⟩) holds (run.isOpen sound holds) leads count)

theorem Within.readUpTo {r : Reader} (holds : f o = r.holding) (most : Int) :
    (r.readUpTo most).Preserves (c.Within f) :=
  Reader.preserves_readUpTo (fun _ _ _ plays run => run.plays plays)
    (fun isOpen _ _ count leads run => run.take sound holds isOpen leads count) most

theorem Within.readAll {r : Reader} (holds : f o = r.holding) : r.readAll.Preserves (c.Within f) := by
  have all := readUpTo sound holds (-1)
  rwa [Reader.readUpTo, if_pos (by decide)] at all

theorem Within.readSome {r : Reader} (holds : f o = r.holding) (most : Nat) :
    (r.readSome most).Preserves (c.Within f) := readUpTo sound holds most

theorem Within.readLine {r : Reader} (holds : f o = r.holding) : r.readLine.Preserves (c.Within f) :=
  Reader.preserves_readLine (fun _ _ _ plays run => run.plays plays)
    fun isOpen _ _ count leads run => run.take sound holds isOpen leads count

/-- Closing a reader ends the ownership. -/
theorem Run.closeReader {r : Reader} (run : Run c ⟨w, f⟩) (holds : f o = r.holding) :
    ∃ w', Reader.close.exec r w = (.ok (), { r with closed := true }, w') ∧
      Run c ⟨w', Function.update f o none⟩ := by
  cases isClosed : r.closed with
  | true =>
    have nothing : f o = none := by rw [holds, Reader.holding, if_pos isClosed]
    refine ⟨w, ?_, ?_⟩
    · simp only [Reader.close, Owning.exec_bind, Owning.exec_own, isClosed, if_true, Owning.exec_pure]
      rw [← isClosed]
    · rwa [← nothing, Function.update_eq_self]
  | false =>
    rw [Reader.holding_of_open isClosed] at holds
    have isOpen := run.isOpen sound holds
    exact ⟨w.shut r.descriptor, Reader.exec_close isClosed isOpen, run.tail (.close (c := ⟨w, f⟩) holds isOpen)⟩

/-- Passing on what is held back is a step of the writer's owner, and leaves it the owner. -/
theorem Run.passOn {r : Writer} (run : Run c ⟨w, f⟩) (holds : f o = some r.descriptor) :
    ∃ outcome r' w', Writer.passOn.exec r w = (outcome, r', w') ∧ Run c ⟨w', f⟩ ∧
      r'.descriptor = r.descriptor ∧ r'.closed = r.closed ∧
      ∀ e, outcome = .error e → e = .system .brokenPipe := by
  by_cases empty : r.held = []
  · exact ⟨_, _, _, Writer.passOn_of_empty empty w, run, rfl, rfl, nofun⟩
  · obtain ⟨_, plays⟩ := settle_plays w
    have settled := run.plays plays
    have passed := Writer.passOn_of_held empty w
    cases delivered : w.settle.deliver? ((w.settle.channel? r.descriptor).getD .null) r.held with
    | none =>
      rw [delivered] at passed
      refine ⟨_, _, _, passed, settled, rfl, rfl, fun e failed => ?_⟩
      cases failed
      rfl
    | some after =>
      rw [delivered] at passed
      exact ⟨_, _, _, passed, settled.tail
        (.write (c := ⟨w.settle, f⟩) holds (settled.isOpen sound holds) delivered), rfl, rfl, nofun⟩

theorem Run.flush {r : Writer} (run : Run c ⟨w, f⟩) (holds : f o = r.holding) :
    Run c ⟨(Writer.flush.exec r w).2.2, f⟩ ∧ (Writer.flush.exec r w).2.1.holding = r.holding ∧
      (Writer.flush.exec r w).2.1.descriptor = r.descriptor := by
  unfold Writer.flush
  rw [Owning.exec_bind, Owning.exec_own]
  dsimp only
  cases isClosed : r.closed with
  | true =>
    rw [if_pos rfl, Owning.exec_bind, Owning.exec_throw]
    exact ⟨run, rfl, rfl⟩
  | false =>
    rw [Writer.holding_of_open isClosed] at holds
    obtain ⟨_, r', w', passed, run', descriptor, closed, -⟩ := run.passOn sound holds
    rw [if_neg (by simp), passed]
    exact ⟨run', by rw [Writer.holding, Writer.holding, descriptor, closed], descriptor⟩

/-- Closing a writer ends the ownership, also where nobody can read what it held. -/
theorem Run.closeWriter {r : Writer} (run : Run c ⟨w, f⟩) (holds : f o = r.holding) :
    ∃ outcome r' w', Writer.close.exec r w = (outcome, r', w') ∧ r'.closed = true ∧
      Run c ⟨w', Function.update f o none⟩ ∧ (∀ e, outcome = .error e → e = .system .brokenPipe) ∧
      r'.descriptor = r.descriptor := by
  cases isClosed : r.closed with
  | true =>
    have nothing : f o = none := by rw [holds, Writer.holding, if_pos isClosed]
    refine ⟨.ok (), r, w, ?_, isClosed, ?_, nofun, rfl⟩
    · simp only [Writer.close, Owning.exec_bind, Owning.exec_own, isClosed, if_true, Owning.exec_pure]
    · rwa [← nothing, Function.update_eq_self]
  | false =>
    rw [Writer.holding_of_open isClosed] at holds
    obtain ⟨outcome, r', w', passed, run', descriptor, -, broken⟩ := run.passOn sound holds
    have isOpen := run'.isOpen sound holds
    exact ⟨outcome, _, _, Writer.exec_close_of_passOn isClosed passed isOpen, rfl,
      run'.tail (.close (c := ⟨w', f⟩) holds isOpen), broken, descriptor⟩

end Sound

end Custody

end Pipework
