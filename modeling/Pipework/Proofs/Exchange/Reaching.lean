import Pipework.Proofs.Exchange.Steps
import Pipework.Proofs.Handle.Waiting

/-!
# What the caller's calls are in an exchange

Reading to the end, closing a writer and waiting for a process are runs of an exchange: first the processes
act, as the system lets them, and then the caller does its step. `Exchange.Reaches` is a run of which only
the state at its end matters, not what entered pipes on the way.
-/

namespace Pipework

namespace World

variable {w : World} {pipe : Nat}

theorem content_consume_all : (w.consume (w.content pipe).length (.readEnd pipe)).content pipe = [] := by
  by_cases known : pipe < w.pipes.length
  · rw [consume, content_setContent w _ known, if_pos rfl, List.drop_length]
  · simp [consume, setContent, content, known]

end World

namespace Exchange

variable {c : Exchange.Call} {s : Exchange} {w w' : World} {stage : Stage} {out : Option Outflow}
  {inn : Stream → Option Inflow}

/-- A run to a state, whatever has entered pipes by then, that keeps what the caller relies on. -/
def Reaches (c : Exchange.Call) (s : Exchange) (w : World) (stage : Stage) (out : Option Outflow)
    (inn : Stream → Option Inflow) : Prop :=
  s.world.Keeps w ∧ ∃ entries, Run c s { world := w, stage, outflow := out, inflow := inn, entries }

namespace Reaches

/-- One more step. -/
theorem tail {stage' : Stage} {out' : Option Outflow} {inn' : Stream → Option Inflow}
    (reaches : Reaches c s w stage out inn) (keeps : w.Keeps w')
    (step : ∀ entries, ∃ entries',
      Step c { world := w, stage, outflow := out, inflow := inn, entries }
        { world := w', stage := stage', outflow := out', inflow := inn', entries := entries' }) :
    Reaches c s w' stage' out' inn' := by
  obtain ⟨kept, entries, run⟩ := reaches
  obtain ⟨entries', step⟩ := step entries
  exact ⟨kept.trans keeps, entries', run.tail step⟩

/-- The processes act. -/
theorem plays {entries : List (Nat × Bytes)} (reaches : Reaches c s w stage out inn)
    (plays : w.Plays w' entries) : Reaches c s w' stage out inn := by
  induction plays with
  | refl => exact reaches
  | tail _ acts ih =>
    obtain ⟨_, passes, -⟩ := acts.runs
    exact ih.tail passes.keeps fun _ => ⟨_, .acts acts⟩

/-- Something happens that does not even touch pipes, descriptors and processes. -/
theorem aside (reaches : Reaches c s w stage out inn) (pipes : w'.pipes = w.pipes)
    (descriptors : w'.descriptors = w.descriptors) (retired : w'.retired = w.retired)
    (processes : w'.processes = w.processes) : Reaches c s w' stage out inn :=
  reaches.tail (World.keeps_of_same descriptors retired processes) fun entries => ⟨entries, .elsewhere
    { processes
      content := fun _ _ => by rw [World.content, pipes]; rfl
      length := Nat.le_of_eq (by rw [pipes])
      descriptors := fun _ _ _ member _ => descriptors ▸ member }⟩

/-- Something is noted in the trace. -/
theorem emit (reaches : Reaches c s w stage out inn) (e : Event) : Reaches c s (w.emit e) stage out inn :=
  reaches.aside rfl rfl rfl rfl

end Reaches

end Exchange

/-! ## Reading -/

/-- Letting time pass until something holds, without a limit. -/
theorem Sim.runUntil_ok {condition : World → Bool} {b : Bool} {w w' : World}
    (ran : (runUntil condition none).exec w = (.ok b, w')) :
    b = true ∧ condition w' = true ∧ ∃ entries, w.Plays w' entries := by
  obtain ⟨outcome, _, entries, same, plays, holds⟩ := exec_runUntil condition none w
  obtain ⟨_, ended | blocked⟩ := exec_runUntil_none condition w
  · rw [ran] at same ended
    cases ended
    cases same
    exact ⟨rfl, holds rfl, entries, plays⟩
  · rw [ran] at blocked
    cases blocked

namespace Reader

variable {r : Reader} {w w' : World} {pipe : Nat}

theorem content_of (leads : w.pipeOf? r.descriptor = some pipe) : r.content w = w.content pipe := by
  simp [content, leads]

theorem atEnd_of (leads : w.pipeOf? r.descriptor = some pipe) : r.atEnd w = !w.hasWriter pipe := by
  simp [atEnd, leads]

theorem exec_take (leads : w.pipeOf? r.descriptor = some pipe) (count : Nat) :
    (r.take count).exec w
      = (.ok ((w.content pipe).take count), w.consume count (.readEnd pipe)) := by
  simp only [take, Sim.exec_bind, Sim.exec_get, leads, content_of leads]
  rfl

/-- Reading to the end lets the processes act until nobody can write any more, and takes what is there. -/
theorem exec_readAll {b : Bytes} (isOpen : r.closed = false)
    (leads : w.pipeOf? r.descriptor = some pipe) (ran : r.readAll.exec w = (.ok b, w')) :
    ∃ w₁ entries, w.Plays w₁ entries ∧ w₁.hasWriter pipe = false ∧ b = w₁.content pipe ∧
      w' = w₁.consume (w₁.content pipe).length (.readEnd pipe) := by
  unfold readAll at ran
  obtain ⟨_, w₀, checked, ran⟩ := Sim.bind_ok ran
  simp only [checkOpen, isOpen, Bool.false_eq_true, if_false, Sim.exec_pure] at checked
  cases checked
  obtain ⟨_, w₁, waited, ran⟩ := Sim.bind_ok ran
  obtain ⟨-, ended, entries, plays⟩ := Sim.runUntil_ok waited
  have leads₁ : w₁.pipeOf? r.descriptor = some pipe := plays.pipeOf?.trans leads
  rw [atEnd_of leads₁, Bool.not_eq_true'] at ended
  rw [Sim.exec_bind, Sim.exec_get] at ran
  dsimp only at ran
  rw [exec_take leads₁, content_of leads₁, List.take_length] at ran
  cases ran
  exact ⟨w₁, entries, plays, ended, rfl, rfl⟩

end Reader

namespace Exchange.Reaches

variable {c : Exchange.Call} {s : Exchange} {w w' : World} {stage : Stage} {out : Option Outflow}
  {inn : Stream → Option Inflow}

/-- The caller reads stdout to its end. -/
theorem readAll {i : Inflow} {b : Bytes} (reaches : Reaches c s w .reading out inn)
    (there : inn .stdout = some i) (isOpen : i.reader.closed = false)
    (leads : w.pipeOf? i.reader.descriptor = some i.pipe)
    (ran : i.reader.readAll.exec w = (.ok b, w')) :
    Reaches c s w' .joining out (Function.update inn .stdout (some (i.take b))) ∧ w.Keeps w' ∧
      w'.memory = w.memory := by
  obtain ⟨w₁, entries, plays, noWriter, rfl, rfl⟩ := Reader.exec_readAll isOpen leads ran
  have keeps : w.Keeps (w₁.consume (w₁.content i.pipe).length (.readEnd i.pipe)) := by
    obtain ⟨_, passes, -⟩ := plays.runs
    exact passes.keeps.trans (World.passes_consume w₁ _ _).keeps
  refine ⟨?_, keeps, (World.same_of_consume w₁ _ _).2.trans plays.memory⟩
  have read : Reaches c s (w₁.consume (w₁.content i.pipe).length (.readEnd i.pipe)) .reading out
      (Function.update inn .stdout (some (i.take (w₁.content i.pipe)))) := by
    refine (reaches.plays plays).tail (World.passes_consume _ _ _).keeps fun entries => ⟨entries, ?_⟩
    have step := Step.read (c := c)
      (s := { world := w₁, stage := .reading, outflow := out, inflow := inn, entries })
      trivial there isOpen (w₁.content i.pipe).length
    rwa [List.take_length] at step
  refine read.tail (.refl _) fun entries => ⟨entries, .ended rfl fun j member => ?_⟩
  have same : Function.update inn .stdout (some (i.take (w₁.content i.pipe))) .stdout = some j := member
  rw [Function.update_self] at same
  cases same
  exact ⟨World.content_consume_all, noWriter⟩

/-- A writer is closed: it passes on what it holds, or nobody can read that. -/
theorem close {o : Outflow} (reaches : Reaches c s w stage (some o) inn) (called : stage ≠ .before)
    (isOpen : o.writer.closed = false) (left : o.left = [])
    (leads : w.channel? o.writer.descriptor = some (.writeEnd o.pipe)) :
    ∃ r w', w'.memory = w.memory ∧
      (Writer.close.exec o.writer w = (.ok (), r, w') ∧ Reaches c s w' stage (some o.close) inn ∨
        Writer.close.exec o.writer w = (.error (.system .brokenPipe), r, w') ∧
          Reaches c s w' stage (some o.lose) inn) := by
  have known (w₁ : World) (descriptors : w₁.descriptors = w.descriptors) :
      o.writer.descriptor ∈ w₁.descriptors.map (·.1) := descriptors ▸ World.mem_of_channel? leads
  by_cases empty : o.writer.held = []
  · have shut : Reaches c s (w.shut o.writer.descriptor) stage (some o.close) inn :=
      reaches.tail (World.keeps_shut _) fun entries => ⟨entries, .close called rfl isOpen left empty⟩
    exact ⟨_, w.shut _, rfl, .inl
      ⟨Writer.exec_close_of_passOn isOpen (Writer.passOn_of_empty empty w) (known w rfl), shut⟩⟩
  · obtain ⟨_, plays⟩ := World.settle_plays w
    obtain ⟨_, passes, -⟩ := plays.runs
    have settled := reaches.plays plays
    have passed := Writer.passOn_of_held empty w
    rw [World.channel?, passes.descriptors, ← World.channel?, leads, Option.getD_some] at passed
    cases delivered : w.settle.deliver? (.writeEnd o.pipe) o.writer.held with
    | none =>
      rw [delivered] at passed
      have lost : Reaches c s (w.settle.shut o.writer.descriptor) stage (some o.lose) inn :=
        settled.tail (World.keeps_shut _) fun entries =>
          ⟨entries, .lose called rfl isOpen delivered⟩
      exact ⟨_, w.settle.shut _, plays.memory, .inr
        ⟨Writer.exec_close_of_passOn isOpen passed (known _ passes.descriptors), lost⟩⟩
    | some w₁ =>
      rw [delivered] at passed
      have descriptors : w₁.descriptors = w.descriptors :=
        (World.passes_deliver? delivered).descriptors.trans passes.descriptors
      have through : Reaches c s w₁ stage (some (o.hold [])) inn :=
        settled.tail (World.passes_deliver? delivered).keeps fun entries =>
          ⟨_, .pass rfl isOpen (List.append_nil _).symm delivered⟩
      have shut : Reaches c s (w₁.shut o.writer.descriptor) stage (some (o.hold []).close) inn :=
        through.tail (World.keeps_shut _) fun entries =>
          ⟨entries, .close (o := o.hold []) called rfl isOpen left rfl⟩
      exact ⟨_, w₁.shut _, (World.same_of_deliver? delivered).2.trans plays.memory, .inl
        ⟨Writer.exec_close_of_passOn isOpen passed (known _ descriptors), shut⟩⟩

end Exchange.Reaches

end Pipework
