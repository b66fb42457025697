import Mathlib.Logic.Relation
import Pipework.Proofs.Exchange.Calling
import Pipework.Proofs.Pump.Collecting
import Pipework.Proofs.Text.Sequences
import Pipework.Proofs.Vigil.Threads

/-!
# Draining does not depend on the chunks

A pump that drains reads as much of what is there as it likes at a time, while bytes go on entering its pipe. If
its thread comes to the end without a failure, everything that was in the pipe or entered it has gone into the
buffer, in order, and has been counted (`Drainage.Run.complete`); a text buffer has the characters of all of it, and a
replacement for each malformed sequence, as if it had been decoded at once. The program's own thread is one of
these runs (`Pump.start_drains_content`).
-/

namespace Pipework

open World (Gains)

/-- A pump that drains in the middle of its work, and what has entered pipes and what it has put into its buffer
since it was started. -/
structure Drainage where
  world : World
  strand : Strand
  entries : List (Nat × Bytes) := []
  puts : List Put := []

namespace Drainage

/-- A pump is started. -/
def start (p : Pump) (w : World) : Drainage where
  world := w
  strand := { p with thread := .running : Pump }.strand w

/-- What can happen next. -/
inductive Step (d : Drainage) : Drainage → Prop where
  /-- Something happens around the pump. Bytes may enter its pipe while somebody can write to it, but nobody else
  takes any, and nobody else changes its buffer. -/
  | around {w : World} {entries : List (Nat × Bytes)}
    (gains : ∀ i, d.strand.inflow = some i → Gains i.pipe (enteredInto i.pipe entries) d.world w)
    (silent : ∀ i, d.strand.inflow = some i → d.world.hasWriter i.pipe = false → enteredInto i.pipe entries = [])
    (untouched : ∀ ref, d.strand.pump.buffer = .object ref → w.memory.get? ref = d.world.memory.get? ref) :
    Step d { d with world := w, entries := d.entries ++ entries }
  /-- The thread does something: it takes any part of what is there, or puts it into the buffer. -/
  | thread {w : World} {t : Strand} {puts : List Put} (step : d.strand.Step d.world w t puts) :
    Step d { d with world := w, strand := t, puts := d.puts ++ puts }

/-- Any interleaving, with any chunks. -/
abbrev Run : Drainage → Drainage → Prop := Relation.ReflTransGen Step

variable {d d' : Drainage} {w₀ w : World} {pipe : Nat} {settings : PumpSettings} {coding : Coding}
  {ref : ObjectRef} {x : Cell}

/-- As long as nothing has failed: what was drawn has been counted and put into the buffer, and in the end also
what the decoder kept. -/
structure Going (coding : Coding) (ref : ObjectRef) (x : Cell) (drawn : Bytes) (t : Strand) (m : Memory) : Prop where
  clean : t.pump.error = none
  moved : t.pump.moved = drawn.length
  held : (∀ outcome, t.task ≠ .done outcome) → t.pump.Collects coding ref x drawn m
  taken : ∀ outcome, t.task = .done outcome → ∃ y, m.get? ref = some y ∧
    (ref.kind.TakesBytes → x.Took drawn y) ∧ (ref.kind.TakesText → x.TookText (coding.decodeReplacing drawn) y)

/-- What holds at every moment since the start. -/
structure Sound (settings : PumpSettings) (coding : Coding) (ref : ObjectRef) (x : Cell) (w₀ : World) (pipe : Nat)
    (d : Drainage) : Prop where
  flow : ∃ i, d.strand.inflow = some i ∧ i.pipe = pipe ∧
    d.strand.Sound w₀ d.world d.entries (drawnFrom pipe d.puts) i
  buffer : d.strand.pump.buffer = .object ref
  fixed : d.strand.pump.settings = settings
  coded : ref.kind.TakesText → ∃ name, settings.coding = some name ∧ Coding.named name = .ok coding
  going : (∀ e, d.strand.task.outcome? ≠ some (.error e)) →
    Going coding ref x (drawnFrom pipe d.puts) d.strand d.world.memory

/-- Nothing happens to the pump and to its buffer. -/
private theorem Going.same {t t' : Strand} {m m' : Memory} {drawn : Bytes} (going : Going coding ref x drawn t m)
    (busy : ∀ outcome, t.task ≠ .done outcome) (busy' : ∀ outcome, t'.task ≠ .done outcome)
    (pump : t'.pump = t.pump) (memory : m' = m) : Going coding ref x drawn t' m' where
  clean := pump ▸ going.clean
  moved := pump ▸ going.moved
  held _ := by
    rw [pump, memory]
    exact going.held busy
  taken outcome finished := absurd finished (busy' outcome)

/-- A step of the thread that is no failure goes on well. -/
private theorem Going.step {t t' : Strand} {w' : World} {i : Inflow} {drawn : Bytes} {puts : List Put}
    (step : t.Step w w' t' puts)
    (going : (∀ e, t.task.outcome? ≠ some (.error e)) → Going coding ref x drawn t w.memory)
    (buffer : t.pump.buffer = .object ref)
    (coded : ref.kind.TakesText → t.pump.codingFor "lookup() argument" = .ok coding) (there : t.inflow = some i)
    (drains : t.task ≠ .feeding) (fine : ∀ e, t'.task.outcome? ≠ some (.error e)) :
    Going coding ref x (drawn ++ drawnFrom i.pipe puts) t' w'.memory := by
  cases step with
  | feeds task => exact absurd task drains
  | reads task here isOpen count any =>
    rw [drawnFrom_nil, List.append_nil]
    exact (going (by simp [task, Task.outcome?])).same (by simp [task]) (by simp) rfl
      (World.same_of_consume w count _).2
  | fails task e => exact absurd rfl (fine e)
  | ends task here ended =>
    rw [drawnFrom_nil, List.append_nil]
    exact (going (by simp [task, Task.outcome?])).same (by simp [task]) (by simp) rfl rfl
  | @puts j chunk p _ task here taken =>
    cases there.symm.trans here
    have before := going (by simp [task, Task.outcome?])
    obtain ⟨collects, moved, clean⟩ := (before.held (by simp [task])).writeBuffer buffer coded taken
    have drawnNow : drawnFrom i.pipe [⟨i.pipe, t.pump.buffer, chunk⟩] = chunk := by simp [drawnFrom]
    rw [drawnNow]
    refine ⟨clean.trans before.clean, ?_, fun _ => collects.of_same rfl rfl, by simp⟩
    rw [List.length_append, ← before.moved, ← moved]
  | refused task refused => exact absurd rfl (fine _)
  | @closes j outcome closing _ task here closed =>
    rw [drawnFrom_nil, List.append_nil]
    have memory := Pump.memory_of_closeReader closed
    refine (going fun e failed => ?_).same (by simp [task]) (by simp) rfl memory
    rw [task] at failed
    cases failed
    cases closing with
    | error e => exact fine e rfl
    | ok _ => exact fine e rfl
  | @finishes outcome last p _ task ended =>
    rw [drawnFrom_nil, List.append_nil]
    cases outcome with
    | error e =>
      cases ended
      exact absurd rfl (fine e)
    | ok _ =>
      cases last with
      | error e => exact absurd rfl (fine e)
      | ok _ =>
        have before := going (by simp [task, Task.outcome?])
        obtain ⟨rfl, taken⟩ := (before.held (by simp [task])).writeTail buffer ended
        exact ⟨before.clean, before.moved, fun busy => absurd rfl (busy _), fun _ _ => taken⟩

/-- The decoder of a pump has the coding that its settings name. -/
private theorem Sound.codingFor (sound : d.Sound settings coding ref x w₀ pipe) (text : ref.kind.TakesText) :
    d.strand.pump.codingFor "lookup() argument" = .ok coding := by
  obtain ⟨name, known, named⟩ := sound.coded text
  rw [Pump.codingFor, sound.fixed, known]
  exact named

theorem Step.sound (step : Step d d') (sound : d.Sound settings coding ref x w₀ pipe) :
    d'.Sound settings coding ref x w₀ pipe := by
  obtain ⟨i, there, rfl, flow⟩ := sound.flow
  cases step with
  | @around w entries gains silent untouched =>
    refine { sound with flow := ⟨i, there, rfl, flow.gains (gains i there) (silent i there)⟩, going := fun fine => ?_ }
    have going := sound.going fine
    have same := untouched ref sound.buffer
    exact ⟨going.clean, going.moved, fun busy => (going.held busy).of_same rfl same, fun outcome finished => by
      rw [same]
      exact going.taken outcome finished⟩
  | @thread w t puts step =>
    have effect := step.effect
    have buffer : t.pump.buffer = .object ref := (congrArg Prod.snd effect.ends).trans sound.buffer
    obtain ⟨i', there', same, flow'⟩ := step.sound flow there
    refine ⟨⟨i', there', same, ?_⟩, buffer, effect.settings.trans sound.fixed, sound.coded, fun fine => ?_⟩
    · rwa [drawnFrom_append]
    · rw [drawnFrom_append]
      exact Going.step step sound.going sound.buffer sound.codingFor there flow.drains fine

theorem Run.sound (run : Run d d') (sound : d.Sound settings coding ref x w₀ pipe) :
    d'.Sound settings coding ref x w₀ pipe := by
  induction run with
  | refl => exact sound
  | tail _ step ih => exact step.sound ih

/-- A pump can be started whose end is its own and whose buffer can take what comes. -/
theorem sound_start {p : Pump} {r : Reader} (clean : p.error = none) (unmoved : p.moved = 0)
    (fresh : p.decoder = none) (ends : Pump.readerOf p.pipeEnd = some r)
    (owned : w.Owned r.descriptor (.readEnd pipe) pipe) (buffer : p.buffer = .object ref)
    (here : w.memory.get? ref = some x) (kind : ref.kind = x.kind) (takes : x.kind.TakesBytes ∨ x.kind.TakesText)
    (coded : ref.kind.TakesText → ∃ name, p.settings.coding = some name ∧ Coding.named name = .ok coding) :
    (start p w).Sound p.settings coding ref x w pipe := by
  have strand : (start p w).strand
      = ⟨{ p with thread := .running, pipeEnd := .gone }, .reading, some { reader := r, pipe }⟩ := by
    simp [start, Pump.strand, ends, owned.pipeOf?]
  refine ⟨⟨_, congrArg Strand.inflow strand, rfl, ?_⟩, ?_, ?_, coded, fun _ => ?_⟩ <;> rw [strand]
  · exact
      { inflow := ⟨owned.known, owned.exclusive, List.append_nil _⟩
        early := rfl
        drains := nofun
        conserved := fun _ => rfl
        ended := nofun
        failed := nofun }
  · exact buffer
  · exact ⟨clean, unmoved, fun _ => (Pump.Collects.nothing here kind takes fresh).of_same rfl rfl, nofun⟩

/-- A drain has put a content into its buffer and has counted it, and nothing more can come. -/
structure Complete (coding : Coding) (ref : ObjectRef) (x : Cell) (pipe : Nat) (content : Bytes) (d : Drainage) :
    Prop where
  clean : d.strand.pump.error = none
  moved : d.strand.pump.moved = content.length
  ended : d.world.Ended pipe
  bytes : ref.kind.TakesBytes → ∃ y, d.world.memory.get? ref = some y ∧ x.Took content y
  /-- A text has the characters of the content, and a replacement for each malformed sequence. -/
  text : ref.kind.TakesText → ∃ y pieces, d.world.memory.get? ref = some y ∧ coding.Splits content pieces ∧
    x.TookText (pieces.map Piece.replaced) y

/-- When the thread has come to its end without a failure, everything that was in the pipe or has entered it is in
the buffer. -/
theorem Sound.complete (sound : d.Sound settings coding ref x w₀ pipe) (finished : d.strand.task = .done (.ok ()))
    (reads : settings.chunkSize ≠ some 0) :
    Complete coding ref x pipe (w₀.content pipe ++ enteredInto pipe d.entries) d := by
  obtain ⟨i, there, rfl, flow⟩ := sound.flow
  have going := sound.going (by rw [finished]; nofun)
  have ended := (flow.ended (by rw [finished]; rfl)).resolve_left (sound.fixed ▸ reads)
  have drawn := flow.conserved (by rw [finished]; nofun)
  have content : w₀.content i.pipe ++ enteredInto i.pipe d.entries = drawnFrom i.pipe d.puts := by
    rw [flow.inflow.conserved, flow.early, ended.content, ← drawn, finished]
    simp [Task.carried]
  obtain ⟨y, here, bytes, text⟩ := going.taken _ finished
  rw [content]
  exact ⟨going.clean, going.moved, ended, fun takes => ⟨y, here, bytes takes⟩,
    fun takes => ⟨y, _, here, (Coding.splits_iff coding).mpr rfl, text takes⟩⟩

/-- What the program does around a thread is nothing but the processes' acting. -/
theorem setting (sound : d.Sound settings coding ref x w₀ pipe) :
    Strand.Setting fun w t => ∃ entries puts, Run d ⟨w, t, entries, puts⟩ where
  plays plays reached := by
    obtain ⟨entries, puts, run⟩ := reached
    induction plays with
    | refl => exact ⟨entries, puts, run⟩
    | @tail w₁ w₂ _ more _ acts ih =>
      obtain ⟨entries, puts, run⟩ := ih
      obtain ⟨i, there, rfl, flow⟩ := (run.sound sound).flow
      refine ⟨entries ++ more, puts, run.tail (.around (fun j same => ?_) (fun j same noWriter => ?_)
        fun _ _ => by rw [acts.memory])⟩
      all_goals cases there.symm.trans same
      · exact acts.gains flow.inflow.exclusive.processes
      · exact acts.silent (World.holders_eq_zero_iff.mp (World.hasWriter_eq_false_iff.mp noWriter)).2
  rests keeps apart memory reached := by
    obtain ⟨entries, puts, run⟩ := reached
    exact ⟨entries ++ [], puts, run.tail (.around (fun i _ => apart.gains trivial) (fun _ _ _ => rfl)
      fun _ _ => by rw [memory])⟩
  thread keeps step reached := by
    obtain ⟨entries, puts, run⟩ := reached
    exact ⟨entries, _, run.tail (.thread step)⟩
  inflow reached := by
    obtain ⟨entries, puts, run⟩ := reached
    obtain ⟨i, there, rfl, flow⟩ := (run.sound sound).flow
    cases there
    exact ⟨_, _, flow.inflow⟩

/-- The program's own thread, if it has finished when it was waited for, is one of the runs, and what its move came to
in the world where it ran is what it has come to. -/
theorem run_of_join {p p' : Pump} {r : Reader} {w' : World} {limit : Option Time}
    (sound : (start p w).Sound settings coding ref x w₀ pipe) (drains : p.direction = .drain)
    (ends : Pump.readerOf p.pipeEnd = some r) (isOpen : r.closed = false)
    (owned : w.Owned r.descriptor (.readEnd pipe) pipe)
    (ran : (do Pump.start; Pump.join limit : Owning Pump Unit).exec p w = (.ok (), p', w'))
    (finished : p'.thread = .finished) : ∃ d w₁, Run (start p w) d ∧ d.world = w' ∧ d.strand.pump = p' ∧
      d.strand.task = .done (Pump.move.exec { p with thread := .running } w₁).1 ∧ w₁.memory = w.memory := by
  rw [Owning.exec_bind, Pump.exec_start_of_drain drains] at ran
  dsimp only at ran
  have strand : (start p w).strand
      = ⟨{ p with thread := .running, pipeEnd := .gone }, .reading, some { reader := r, pipe }⟩ := by
    simp [start, Pump.strand, ends, owned.pipeOf?]
  have started : ∃ entries puts, Run (start p w) ⟨w.emit (.threadStarted p.threadName),
      ⟨{ p with thread := .running, pipeEnd := .gone }, .reading, some { reader := r, pipe }⟩, entries, puts⟩ := by
    refine (setting sound).rests (w := w) (World.keeps_of_same rfl rfl rfl) ?_ rfl
      ⟨[], [], by rw [← strand]; exact .refl⟩
    exact ⟨rfl, fun _ _ => rfl, Nat.le_refl _, fun _ _ _ member _ => member⟩
  rcases (setting sound).join (p := { p with thread := .running }) started rfl drains ends isOpen
    owned.pipeOf? ran with ⟨w₁, _, i', plays, entries, puts, run⟩ | ⟨rfl, -, -⟩
  · exact ⟨_, w₁, run, rfl, rfl, rfl, plays.memory⟩
  · cases finished

end Drainage

namespace Pump

variable {p : Pump} {w : World} {r : Reader} {pipe : Nat} {coding : Coding} {name : Text} {size : Int}
  {ref : ObjectRef} {x : Cell}

/-- **Draining does not depend on the chunks.** A pump with an open end of its own on a pipe, that is to drain into an
object which takes bytes or text: in every interleaving, and whatever parts of what is there are taken at a time, when
its thread comes to the end without a failure, exactly what was in the pipe and has entered it since has gone into
the object and was counted, and nothing more can come. The program's own thread, if it has finished when it was
waited for, is one of these. -/
theorem start_drains_content (drains : p.direction = .drain) (clean : p.error = none) (unmoved : p.moved = 0)
    (fresh : p.decoder = none) (ends : readerOf p.pipeEnd = some r) (isOpen : r.closed = false)
    (owned : w.Owned r.descriptor (.readEnd pipe) pipe) (sized : p.settings.chunkSize = some size) (positive : 0 < size)
    (buffer : p.buffer = .object ref) (here : w.memory.get? ref = some x) (kind : ref.kind = x.kind)
    (takes : x.kind.TakesBytes ∨ x.kind.TakesText)
    (coded : x.kind.TakesText → p.settings.coding = some name ∧ Coding.named name = .ok coding) :
    (∀ d, Drainage.Run (.start p w) d → d.strand.task = .done (.ok ()) →
      Drainage.Complete coding ref x pipe (w.content pipe ++ enteredInto pipe d.entries) d) ∧
    ∀ limit p' w', (do start; join limit : Owning Pump Unit).exec p w = (.ok (), p', w') → p'.thread = .finished →
      ∃ d outcome, Drainage.Run (.start p w) d ∧ d.world = w' ∧ d.strand.pump = p' ∧
        d.strand.task = .done outcome ∧
        (p'.error = none → p.settings.ignoresBrokenPipe = false → outcome = .ok ()) := by
  have sound := Drainage.sound_start clean unmoved fresh ends owned buffer here kind takes
    fun text => ⟨name, coded (kind ▸ text)⟩
  refine ⟨fun d run finished => (run.sound sound).complete finished (by rw [sized]; simp; omega), ?_⟩
  intro limit p' w' ran finished
  obtain ⟨d, w₁, run, world, pump, done, -⟩ := Drainage.run_of_join sound drains ends isOpen owned ran finished
  refine ⟨d, _, run, world, pump, done, fun quiet strict => ?_⟩
  have now := run.sound sound
  obtain ⟨i, there, -, flow⟩ := now.flow
  cases came : (move.exec { p with thread := .running } w₁).1 with
  | ok _ => rfl
  | error e =>
    have ignored := (flow.failed e (came ▸ done) (pump ▸ quiet)).2
    rw [now.fixed] at ignored
    exact nomatch strict.symm.trans ignored

/-- A system with a pipe that nobody writes to any more: it holds a character of two bytes, a byte that begins none,
and the start of a character. -/
private def soakedWorld : World where
  descriptors := [(10, .readEnd 0)]
  nextDescriptor := 11
  pipes := [[0xC3, 0xA9, 0xFF, 0xE2]]
  memory := { cells := [.textStream [] 0] }

/-- A pump that drains this pipe byte by byte. -/
private def transcribing : Pump where
  direction := .drain
  pipeEnd := .descriptor 10
  buffer := .object ⟨0, .textStream⟩
  name := "drain"
  logger := "pipes"
  settings := { chunkSize := some 1 }

/-- The text has the character, and two replacements. -/
theorem start_transcribing_drains_content : ∃ p' w',
    (do start; join none : Owning Pump Unit).exec transcribing soakedWorld = (.ok (), p', w') ∧ p'.moved = 4 ∧ p'.error = none ∧
    w'.memory.get? ⟨0, .textStream⟩ = some (.textStream [.char 'é', .char '\uFFFD', .char '\uFFFD'] 3) := by
  have owned : soakedWorld.Owned 10 (.readEnd 0) 0 :=
    ⟨by decide, rfl, by decide, ⟨by decide, by simp [soakedWorld]⟩⟩
  have named : Coding.named "utf-8" = .ok .utf8 := by
    have found : Coding.ofName? "utf-8" = some .utf8 := by decide +kernel
    rw [Coding.named, if_neg (by decide +kernel), if_neg (by decide +kernel), found]
  obtain ⟨complete, drained⟩ := start_drains_content (p := transcribing) (w := soakedWorld) (r := ⟨10, false⟩)
    (x := .textStream [] 0) rfl rfl rfl rfl rfl rfl owned rfl (by decide) rfl rfl rfl (.inr (.inl rfl))
    fun _ => ⟨rfl, named⟩
  obtain ⟨⟨⟩, p', w', ran, tested⟩ := Owning.ok_of_gives
    ((do start; join none : Owning Pump Unit).exec transcribing soakedWorld)
    (fun _ p' _ => p'.thread == .finished && p'.error.isNone && p'.moved == 4) (by decide +kernel)
  simp only [Bool.and_eq_true, beq_iff_eq, Option.isNone_iff_eq_none] at tested
  obtain ⟨⟨finished, quiet⟩, moved⟩ := tested
  obtain ⟨d, outcome, run, rfl, rfl, done, fine⟩ := drained none p' w' ran finished
  obtain rfl := fine quiet rfl
  have whole := complete d run done
  have nothing : enteredInto 0 d.entries = [] := by
    have length := whole.moved
    rw [moved, List.length_append] at length
    exact List.eq_nil_of_length_eq_zero (Nat.add_left_cancel (n := 4) length.symm)
  obtain ⟨y, pieces, here, splits, took⟩ := whole.text (.inl rfl)
  rw [nothing, List.append_nil] at splits
  obtain rfl := (Coding.splits_iff .utf8).mp splits
  have read : Coding.utf8.pieces (soakedWorld.content 0) = [.char 'é', .malformed [0xFF], .malformed [0xE2]] := by
    decide +kernel
  rw [read] at took
  cases took
  exact ⟨_, _, ran, moved, quiet, here⟩

end Pump

end Pipework
