import Pipework.Proofs.Custody.Pumps
import Pipework.Proofs.Pump.Drainage
import Pipework.Proofs.Pump.Offering
import Pipework.Proofs.Supply.Reaching

/-!
# A pump that fails

The run of a pump may fail at any read, at any write, in the coding of its text, and when its end is closed. Its
thread comes to an end all the same, closes the end once, and the pump keeps the failure. What it had moved by then
is where it belongs: what it has counted is in the buffer, or with its writer, and is the beginning of what there was
to move (`Pump.failing_pump_keeps_what_it_moved`).

A failure to deliver what the writer holds comes after the failure of a source, and hides it.
-/

namespace Pipework

open World (Gains)

/-! ## Feeding -/

namespace Supply

variable {s₀ s s' : Supply} {source : Bytes}

/-- What a pump has counted is what it has handed to its writer, and the beginning of what its source holds; unless
it was lost, it has entered the pipe or is held back by the writer. -/
structure Handed (source : Bytes) (s : Supply) : Prop where
  within : s.moved ≤ source.length
  entered : s.entered <+: source.take s.moved
  held : s.outflow.broken = false → s.entered ++ s.outflow.writer.held = source.take s.moved
  closed : s.outflow.broken → s.outflow.writer.closed

/-- As long as nothing is lost, what is not left to be handed over has been. -/
theorem Sound.handed (sound : Sound s₀ s) (whole : s.outflow.broken = false) : s.Handed s₀.outflow.fed := by
  obtain ⟨lost, kept, ordered⟩ := sound.outflow.ordered
  have counted := sound.counted whole
  rw [kept whole, sound.written, sound.fed, List.append_nil, List.nil_append] at ordered
  rw [sound.fed] at counted
  have front : s.entered ++ s.outflow.writer.held = s₀.outflow.fed.take s.moved := by
    have length := congrArg List.length ordered
    rw [List.length_append] at length
    rw [← ordered, List.take_left' (by omega)]
    rfl
  refine ⟨by omega, ⟨_, front⟩, fun _ => front, fun broken => ?_⟩
  exact nomatch whole.symm.trans broken

/-- What was counted before something is lost stays what it was. -/
theorem Step.handed (step : Step s s') (sound : Sound s₀ s) (handed : s.Handed s₀.outflow.fed) :
    s'.Handed s₀.outflow.fed := by
  cases broken : s'.outflow.broken with
  | false => exact (step.sound sound).handed broken
  | true =>
    have stays {s'' : Supply} (outflow : s''.outflow = s.outflow) (moved : s''.moved = s.moved)
        (entered : s''.entered = s.entered) : s''.Handed s₀.outflow.fed := by
      refine ⟨moved ▸ handed.within, ?_, ?_, outflow ▸ handed.closed⟩
      · rw [entered, moved]
        exact handed.entered
      · rw [entered, moved, outflow]
        exact handed.held
    -- A writer that has lost something is closed, and does nothing more.
    have already (isOpen : s.outflow.writer.closed = false) : s.outflow.broken = true → False := fun broken =>
      Bool.false_ne_true (isOpen.symm.trans (handed.closed broken))
    cases step with
    | @acts w entries gone acts took =>
      have silent : enteredInto s.pipe entries = [] := acts.silent sound.outflow.exclusive.processes
      refine stays rfl rfl ?_
      change enteredInto s.pipe (s.entries ++ entries) = s.entered
      rw [enteredInto_append, silent, List.append_nil, entered]
    | elsewhere spares => exact stays rfl rfl rfl
    | move isOpen left => exact (already isOpen broken).elim
    | pass isOpen held delivered => exact (already isOpen broken).elim
    | close isOpen left held => exact (already isOpen broken).elim
    | lose isOpen refused => exact ⟨handed.within, handed.entered, by simp [Outflow.lose], fun _ => rfl⟩

theorem Run.handed (run : Run s₀ s) (sound : Sound s₀ s₀) (whole : s₀.outflow.broken = false) :
    s.Handed s₀.outflow.fed := by
  induction run with
  | refl => exact sound.handed whole
  | tail earlier step ih => exact step.handed (Run.sound earlier sound) ih

/-- What is handed over of a beginning is handed over of the whole. -/
theorem Handed.begins {front : Bytes} (handed : s.Handed front) (begins : front <+: source) :
    s.Handed source := by
  have same : source.take s.moved = front.take s.moved := by
    obtain ⟨rest, rfl⟩ := begins
    rw [List.take_append_of_le_length handed.within]
  refine ⟨Nat.le_trans handed.within begins.length_le, ?_, ?_, handed.closed⟩
  · rw [same]
    exact handed.entered
  · rw [same]
    exact handed.held

end Supply

/-! ## Draining -/

namespace Drainage

variable {p : Pump} {d d' : Drainage} {w₀ w w' : World} {pipe : Nat} {coding : Coding} {ref : ObjectRef} {x : Cell}
  {t t' : Strand} {i : Inflow} {drawn : Bytes} {puts : List Put} {entries : List (Nat × Bytes)}

/-- What a pump relies on while it drains stays the same. -/
theorem readable_same (r : Reader) (p : Pump) :
    Pump.Readable r fun q _ => q.settings = p.settings ∧ q.error = p.error where
  moves _ _ _ _ := id
  plays _ _ _ _ _ := id
  aside _ _ _ _ := id
  take _ _ _ _ _ _ := id

/-- A pump keeps what its thread has failed with, and nothing before that. -/
structure Told (p : Pump) (t : Strand) : Prop where
  clean : (∀ outcome, t.task ≠ .done outcome) → t.pump.error = p.error
  told : ∀ outcome, t.task = .done outcome → t.pump.error = p.verdict outcome

private theorem Told.step (step : t.Step w w' t' puts) (told : Told p t) (drains : t.task ≠ .feeding)
    (settings : t.pump.settings = p.settings) : Told p t' := by
  have same {q : Pump} {task : Task} {inflow : Option Inflow} (error : q.error = t.pump.error)
      (busy : ∀ outcome, t.task ≠ .done outcome) (busy' : ∀ outcome, task ≠ .done outcome) :
      Told p ⟨q, task, inflow⟩ :=
    ⟨fun _ => error.trans (told.clean busy), fun outcome done => absurd done (busy' outcome)⟩
  have kept (q : Pump) : Pump.Readable ⟨0, true⟩ fun q' _ => q'.settings = q.settings ∧ q'.error = q.error :=
    readable_same ⟨0, true⟩ q
  cases step with
  | feeds task => exact absurd task drains
  | reads task | fails task | ends task | closes task => exact same rfl (by rw [task]; nofun) nofun
  | @puts i chunk q _ task there taken =>
    have wrote := (kept t.pump).writeBuffer chunk t.pump w ⟨rfl, rfl⟩
    rw [taken] at wrote
    exact same wrote.2 (by rw [task]; nofun) nofun
  | @refused chunk e q _ task refused =>
    have wrote := (kept t.pump).writeBuffer chunk t.pump w ⟨rfl, rfl⟩
    rw [refused] at wrote
    exact same wrote.2 (by rw [task]; nofun) nofun
  | @finishes outcome last q _ task ended =>
    have tail : (do Sim.ofExcept outcome; Pump.writeTail : Owning Pump Unit).Preserves
        fun q' _ => q'.settings = t.pump.settings ∧ q'.error = t.pump.error :=
      .bind (.lift fun _ => .ofExcept _) fun _ => (kept t.pump).writeTail
    have wrote := tail t.pump w ⟨rfl, rfl⟩
    rw [ended] at wrote
    refine ⟨fun busy => absurd rfl (busy _), ?_⟩
    rintro _ ⟨⟩
    have error : q.error = p.error := wrote.2.trans (told.clean (by rw [task]; nofun))
    dsimp only [Pump.verdict]
    rw [error, wrote.1.trans settings]

/-- At any moment, also after a failure: what a pump has drawn is in its buffer and has been counted. -/
private structure Keeping (coding : Coding) (ref : ObjectRef) (x : Cell) (drawn : Bytes) (t : Strand) (m : Memory) :
    Prop where
  collects : t.pump.Collects coding ref x drawn m
  moved : t.pump.moved = drawn.length
  begins : ∀ i, t.inflow = some i → drawn ++ t.task.carried <+: i.taken

/-- No step of the thread loses anything, whether it fails or not. -/
private theorem Keeping.step (step : t.Step w w' t' puts) (keeping : Keeping coding ref x drawn t w.memory)
    (sound : t.Sound w₀ w entries drawn i) (there : t.inflow = some i) (buffer : t.pump.buffer = .object ref)
    (takes : ref.kind.TakesBytes) : Keeping coding ref x (drawn ++ drawnFrom i.pipe puts) t' w'.memory := by
  have noText := takes.noText
  have before (task : Task) (isTask : t.task = task) : drawn ++ task.carried <+: i.taken :=
    isTask ▸ keeping.begins i there
  -- Nothing is put into the buffer.
  have same {q : Pump} {task : Task} {inflow : Option Inflow} {m : Memory} (decoder : q.decoder = t.pump.decoder)
      (moved : q.moved = t.pump.moved) (memory : m.get? ref = w.memory.get? ref)
      (begins : ∀ j, inflow = some j → drawn ++ task.carried <+: j.taken) :
      Keeping coding ref x (drawn ++ drawnFrom i.pipe []) ⟨q, task, inflow⟩ m := by
    rw [drawnFrom_nil, List.append_nil]
    exact ⟨keeping.collects.of_same decoder memory, moved.trans keeping.moved, begins⟩
  cases step with
  | feeds task => exact absurd task sound.drains
  | @reads j task here isOpen count any =>
    cases there.symm.trans here
    refine same rfl rfl (by rw [(World.same_of_consume w count _).2]) ?_
    rintro _ ⟨⟩
    have kept := sound.conserved (by simp [task, Task.outcome?])
    rw [task, Task.carried, List.append_nil] at kept
    rw [kept]
    exact List.prefix_refl _
  | fails task e =>
    refine same rfl rfl rfl fun j here => ?_
    cases there.symm.trans here
    exact before .reading task
  | ends task here ended =>
    refine same rfl rfl rfl fun j here => ?_
    cases there.symm.trans here
    exact before .reading task
  | @puts j chunk q _ task here taken =>
    cases there.symm.trans here
    obtain ⟨collects, moved, -⟩ := keeping.collects.writeBuffer buffer (absurd · noText) taken
    have drawnNow : drawnFrom i.pipe [⟨i.pipe, t.pump.buffer, chunk⟩] = chunk := by simp [drawnFrom]
    rw [drawnNow]
    refine ⟨collects.of_same rfl rfl, ?_, fun k here => ?_⟩
    · rw [List.length_append, ← keeping.moved, ← moved]
    · cases there.symm.trans here
      rw [Task.carried, List.append_nil]
      exact before _ task
  | @refused chunk e q _ task refused =>
    rw [Pump.exec_writeBuffer_bytes buffer takes] at refused
    generalize written : w.memory.writeBytes ref chunk = result at refused
    obtain ⟨outcome, memory⟩ := result
    cases refused
    have unchanged : memory = w.memory := by
      have same : (w.memory.writeBytes ref chunk).2 = w.memory := Memory.writeBytes_refused (by simp [written])
      rwa [written] at same
    refine same rfl rfl (by rw [unchanged]) fun j here => ?_
    cases there.symm.trans here
    rw [Task.carried, List.append_nil]
    exact (List.prefix_append _ _).trans (before _ task)
  | @closes j outcome closing _ task here closed =>
    have memory := Pump.memory_of_closeReader closed
    refine same rfl rfl (by rw [memory]) ?_
    rintro _ ⟨⟩
    cases there.symm.trans here
    exact before (.closing outcome) task
  | @finishes outcome last q _ task ended =>
    have done : q = t.pump ∧ w' = w := by
      rw [Owning.exec_bind, Owning.exec_lift, Sim.exec_ofExcept] at ended
      cases outcome with
      | error e =>
        cases ended
        exact ⟨rfl, rfl⟩
      | ok _ =>
        cases keeping.collects with
        | bytes kind here took noDecoder =>
          dsimp only at ended
          unfold Pump.writeTail at ended
          rw [Owning.exec_bind, Owning.exec_own] at ended
          dsimp only at ended
          rw [noDecoder] at ended
          cases ended
          exact ⟨rfl, rfl⟩
        | text text => exact absurd text noText
    obtain ⟨rfl, rfl⟩ := done
    refine same rfl rfl rfl fun j here => ?_
    cases there.symm.trans here
    exact before (.ending outcome) task

/-- The pump is at first as it was. -/
private theorem strand_start {r : Reader} (ends : Pump.readerOf p.pipeEnd = some r)
    (owned : w.Owned r.descriptor (.readEnd pipe) pipe) : (start p w).strand
      = ⟨{ p with thread := .running, pipeEnd := .gone }, .reading, some { reader := r, pipe }⟩ := by
  simp [start, Pump.strand, ends, owned.pipeOf?]

/-- Whatever the buffer, a pump keeps what its thread has failed with. -/
theorem Run.told {r : Reader} (run : Run (start p w) d)
    (sound : (start p w).Sound p.settings coding ref x w pipe) (ends : Pump.readerOf p.pipeEnd = some r)
    (owned : w.Owned r.descriptor (.readEnd pipe) pipe) : Told p d.strand := by
  induction run with
  | refl =>
    rw [strand_start ends owned]
    exact ⟨fun _ => rfl, nofun⟩
  | tail earlier step ih =>
    have now := Run.sound earlier sound
    obtain ⟨i, there, rfl, flow⟩ := now.flow
    cases step with
    | around => exact ih
    | thread step => exact Told.step step ih flow.drains now.fixed

private theorem Run.keeping (run : Run d d') (sound : d.Sound p.settings coding ref x w₀ pipe)
    (takes : ref.kind.TakesBytes)
    (keeping : Keeping coding ref x (drawnFrom pipe d.puts) d.strand d.world.memory) :
    Keeping coding ref x (drawnFrom pipe d'.puts) d'.strand d'.world.memory := by
  induction run with
  | refl => exact keeping
  | tail earlier step ih =>
    have now := Run.sound earlier sound
    obtain ⟨i, there, rfl, flow⟩ := now.flow
    cases step with
    | around gains silent untouched =>
      exact { ih with collects := ih.collects.of_same rfl (untouched ref now.buffer) }
    | thread step =>
      rw [drawnFrom_append]
      exact Keeping.step step ih flow there now.buffer takes

end Drainage

/-! ## The thread -/

/-- The end of a pipe that a pump has by its direction. -/
def Direction.channel (pipe : Nat) : Direction → Channel
  | .drain => .readEnd pipe
  | .feed => .writeEnd pipe

namespace Pump

variable {p : Pump} {w : World} {d pipe : Nat}

/-- While it drains, a pump changes neither its settings nor the failure that it keeps. -/
private theorem drain_keeps (r : Reader) (p : Pump) (w : World) :
    ((drain r).exec p w).2.1.settings = p.settings ∧ ((drain r).exec p w).2.1.error = p.error := by
  have readable := Drainage.readable_same r p
  have preserved : (drain r).Preserves fun q _ => q.settings = p.settings ∧ q.error = p.error :=
    .bind (.lift fun _ => .get) fun w => .bind (readable.drainLoop _).attempt fun outcome =>
      .bind (.lift fun _ _ => id) fun _ => .bind (.lift fun _ => .ofExcept _) fun _ => readable.writeTail
  exact preserved p w ⟨rfl, rfl⟩

/-- The move of a pump changes neither its settings nor the failure that it keeps. -/
theorem move_keeps (p : Pump) (w : World) :
    (move.exec p w).2.1.settings = p.settings ∧ (move.exec p w).2.1.error = p.error := by
  cases direction : p.direction with
  | drain =>
    cases ends : readerOf p.pipeEnd with
    | none => simp [move, Owning.exec_bind, direction, ends]
    | some r =>
      rw [exec_move_of_drain direction ends]
      exact drain_keeps r _ w
  | feed =>
    cases ends : writerOf p.pipeEnd with
    | none => simp [move, Owning.exec_bind, direction, ends]
    | some r =>
      have held := Holding.feedAll ({ p with pipeEnd := .gone }, r) w
      rw [exec_move_of_feed direction ends, exec_feed rfl rfl]
      exact ⟨held.settings, held.error⟩

/-- How a thread has come to its end: its descriptor has been closed once, no other one has been, and the pump keeps
what its move failed with, unless it ignores that. -/
structure Released (p : Pump) (w : World) (d : Nat) (outcome : Except Failure Unit) (p' : Pump) (w' : World) :
    Prop where
  finished : p'.thread = .finished
  error : p'.error = p.verdict outcome
  closed : d ∉ w'.descriptors.map (·.1)
  once : ∃ events, w'.events = w.events ++ events ∧ closedBy events = [d]

/-- A pump that is alone with its descriptor. -/
private def alone (w : World) (d : Nat) : Custody := ⟨w, Function.update (fun _ => none) (.pump 0) (some d)⟩

private theorem alone_held {o : Owner} {d' : Nat} (held : (alone w d).held o = some d') : o = .pump 0 ∧ d' = d := by
  dsimp only [alone] at held
  by_cases mine : o = .pump 0
  · subst mine
    rw [Function.update_self] at held
    exact ⟨rfl, (Option.some.inj held).symm⟩
  · rw [Function.update_of_ne mine] at held
    cases held

/-- **The thread of a pump gives up its end.** Whatever its move comes to, the thread comes to its end. -/
theorem exec_run_releases (suited : p.Suited) (holds : p.holding = some d) (isOpen : d ∈ w.descriptors.map (·.1)) :
    ∃ p' w', run.exec p w = (.ok (), p', w') ∧ p.Released w d (move.exec p w).1 p' w' := by
  have sound : (alone w d).Sound :=
    { apart := fun o o' d' first second => (alone_held first).1.trans (alone_held second).1.symm
      isOpen := fun o d' held => (alone_held held).2 ▸ isOpen }
  have owner : (alone w d).held (.pump 0) = some d := by simp [alone]
  obtain ⟨p', w', ran, finished, -, custody⟩ :=
    Custody.Run.thread (p := p) sound .refl (o := .pump 0) (owner.trans holds.symm) suited
  obtain ⟨events, since⟩ := custody.since sound
  have nobody : ¬ (Custody.mk w' (Function.update (alone w d).held (.pump 0) none)).Holds d := by
    rintro ⟨o, held⟩
    dsimp only at held
    by_cases mine : o = .pump 0
    · rw [mine, Function.update_self] at held
      cases held
    · rw [Function.update_of_ne mine] at held
      exact mine (alone_held held).1
  refine ⟨p', w', ran, finished, ?_, ?_, events, since.proceeds.trace, ?_⟩
  · obtain ⟨line, same⟩ := exec_run p w
    obtain ⟨settings, error⟩ := move_keeps p w
    rw [ran] at same
    generalize move.exec p w = moved at same settings error ⊢
    obtain ⟨outcome, p₁, w₁⟩ := moved
    cases same
    dsimp only at settings error ⊢
    unfold verdict
    rw [settings, error]
  · rcases since.accounted ⟨_, owner⟩ with ⟨⟨o, held, -⟩, -⟩ | ⟨-, closed, -⟩
    · exact absurd ⟨o, held⟩ nobody
    · exact closed
  · refine List.perm_singleton.mp ((List.perm_ext_iff_of_nodup since.once (by simp)).mpr fun d' => ?_)
    rw [List.mem_singleton]
    refine ⟨fun shut => ?_, fun same => same ▸ (since.closed d ⟨_, owner⟩).mpr nobody⟩
    obtain ⟨o, held⟩ := since.own d' shut
    exact (alone_held held).2

/-- What comes of a pump that feeds: some bytes go to its writer, until its source ends or fails, and then the writer
is closed. -/
structure Feeds (p : Pump) (w : World) (s₀ : Supply) (ending closing : Except Failure Unit) (p' : Pump) (s : Supply) :
    Prop where
  started : start.exec p w = (.ok (), p', s.world)
  run : Supply.Run s₀ s
  finished : p'.thread = .finished
  moved : p'.moved = s.moved
  whole : s.moved = s₀.outflow.fed.length
  closes : Supply.Closes s₀.outflow.moveAll s.outflow closing
  /-- That what the writer holds could not be delivered comes first. -/
  error : p'.error = p.verdict (do closing; ending)

/-- **Feeding loses nothing.** What goes to the writer is handed over by the source, in every interleaving, and the
program's own thread is one of them. -/
theorem exists_feeds (feeds : p.direction = .feed) (unmoved : p.moved = 0) (ends : p.pipeEnd = .descriptor d)
    (owned : w.Owned d (.writeEnd pipe) pipe) : ∃ handed ending, p.Offers w.memory handed ending ∧
    ∀ chunks, chunks.flatten = handed →
      (∀ s, Supply.Run (.start w ⟨d, [], false⟩ pipe (some chunks)) s → s.Handed (p.sourceBytes w.memory)) ∧
      ∃ closing p' s, p.Feeds w (.start w ⟨d, [], false⟩ pipe (some chunks)) ending closing p' s := by
  obtain ⟨handed, ending, memory, fed, offers⟩ := feedAll_hands (r := ⟨d, [], false⟩) rfl
    { p with thread := .running, pipeEnd := .gone } (w.emit (.threadStarted p.threadName))
  refine ⟨handed, ending, ⟨offers.begins, offers.whole, offers.own⟩, fun chunks cut => ⟨fun s run => ?_, ?_⟩⟩
  · have sound : Supply.Sound (.start w ⟨d, [], false⟩ pipe (some chunks))
        (.start w ⟨d, [], false⟩ pipe (some chunks)) :=
      Supply.sound_start owned.known owned.exclusive rfl rfl
    have all : (Supply.start w ⟨d, [], false⟩ pipe (some chunks)).outflow.fed = handed := cut
    exact (Supply.Run.handed run sound rfl).begins (all ▸ offers.begins)
  · have into : feedInto ⟨d, [], false⟩ (some chunks) = ⟨d, [] ++ handed, false⟩ := by rw [feedInto, ← cut]; rfl
    rw [← into] at fed
    obtain ⟨closing, s, started, run, moved, closes⟩ := Supply.Run.starts
      (s := .start w ⟨d, [], false⟩ pipe (some chunks)) .refl rfl owned.known owned.leads feeds ends fed
    have count : s.moved = handed.length := by rw [moved, ← cut]; exact Nat.zero_add _
    refine ⟨closing, _, s, started, run, rfl, ?_, count.trans (by rw [← cut]; rfl), closes, rfl⟩
    rw [count, unmoved, Nat.zero_add]

/-- The end that a pump which drains holds is that of its reader. -/
theorem open_of_holding {r : Reader} (ends : readerOf p.pipeEnd = some r) (holds : p.holding = some d) :
    r.closed = false ∧ r.descriptor = d := by
  rw [holding_of_readerOf ends, Reader.holding] at holds
  cases closed : r.closed with
  | false => exact ⟨rfl, by simpa [closed] using holds⟩
  | true => simp [closed] at holds

end Pump

end Pipework
