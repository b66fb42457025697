import Pipework.Proofs.Handle.Waiting
import Pipework.Proofs.Pump.Failing

/-!
# Pumps that ignore broken pipes

A pump tells a command that stopped reading from other failures by the kind of the failure alone. A pump that ignores
broken pipes keeps no failure, then, when everything was moved, when nobody could read what was fed, and also when the
caller's own object, that it drains into or is fed from, raises an error of that kind
(`Pump.ignoring_pump_hides_every_broken_pipe`). Every other failure it keeps.
-/

namespace Pipework

/-! ## Where a broken pipe can come from -/

namespace Memory

variable {m : Memory} {ref : ObjectRef} {b : Bytes} {t : Text} {e : Failure} {written : List Bytes}
  {refusal : Option (Nat × SystemError)}

/-- Of the objects that take bytes, only a writer of the caller's raises errors of the system. -/
theorem sink_of_writeBytes_broken (refused : (m.writeBytes ref b).1 = .error e) (broken : e.isBrokenPipe) :
    ∃ written number error, m.get? ref = some (.sink written (some (number, error))) ∧ e = .system error := by
  unfold writeBytes at refused
  split at refused
  · cases refused
  · cases refused
  · next written refusal found =>
    split at refused
    · next number error due =>
      cases refused
      obtain ⟨same, -⟩ := Option.filter_eq_some_iff.mp due
      exact ⟨written, number, error, same ▸ found, rfl⟩
    · cases refused
  all_goals
    cases refused
    cases broken

theorem unbroken_of_writeText (refused : (m.writeText ref t).1 = .error e) : e.isBrokenPipe = false := by
  unfold writeText at refused
  split at refused <;> cases refused
  rfl

/-- A writer stays what it was. -/
theorem sink_of_writeBytes (later : (m.writeBytes ref b).2.get? ref = some (.sink written refusal)) :
    ∃ before, m.get? ref = some (.sink before refusal) := by
  have put {x y : Cell} (found : m.get? ref = some x) (later : (m.put ref y).get? ref = some (.sink written refusal)) :
      y = .sink written refusal := by
    rw [get?_put (by rw [found]; rfl)] at later
    exact Option.some.inj later
  unfold writeBytes at later
  split at later
  · next found => cases put found later
  · next found => cases put found later
  · next before refusal' found =>
    split at later
    · exact ⟨_, later⟩
    · cases put found later
      exact ⟨before, found⟩
  all_goals exact ⟨_, later⟩

theorem sink_of_writeText (later : (m.writeText ref t).2.get? ref = some (.sink written refusal)) :
    m.get? ref = some (.sink written refusal) := by
  unfold writeText at later
  split at later
  · next found =>
    rw [get?_put (by rw [found]; rfl)] at later
    cases later
  · next found =>
    rw [get?_put (by rw [found]; rfl)] at later
    cases later
  · exact later

end Memory

namespace Pump

variable {p p' : Pump} {r : Reader} {w w' : World} {d pipe : Nat} {e : Failure} {chunk : Bytes} {chunks : Nat}

/-- A pump drains into an object of the caller's, and this is the error that it raises. -/
def SinkRaises (p : Pump) (m : Memory) (e : Failure) : Prop :=
  ∃ ref written number error, p.buffer = .object ref ∧ m.get? ref = some (.sink written (some (number, error))) ∧
    e = .system error

/-- Not to find a decoder is no broken pipe. -/
private theorem unbroken_of_theDecoder (failed : theDecoder.exec p w = (.error e, p', w')) :
    e.isBrokenPipe = false := by
  unfold theDecoder at failed
  rw [Owning.exec_bind, Owning.exec_own] at failed
  dsimp only at failed
  split at failed
  · cases failed
  · rw [Owning.exec_bind, Owning.exec_lift, Sim.exec_ofExcept] at failed
    cases found : p.codingFor "lookup() argument" with
    | error _ =>
      rw [found] at failed
      cases failed
      exact unbroken_of_codingFor found
    | ok _ =>
      rw [found] at failed
      cases failed

/-- Putting text into an object is no matter of pipes, and leaves writers what they are. -/
private theorem writeBuffer_text {ref : ObjectRef} {outcome : Except Failure Unit}
    (ran : (do
      let (d, pieces) := (← theDecoder).feed chunk
      Owning.change fun p => { p with decoder := some d }
      onMemory (·.writeText ref (pieces.map Piece.replaced)) : Owning Pump Unit).exec p w = (outcome, p', w')) :
    (∀ e, outcome = .error e → e.isBrokenPipe = false) ∧ ∀ written refusal,
      w'.memory.get? ref = some (.sink written refusal) → w.memory.get? ref = some (.sink written refusal) := by
  obtain ⟨decoder, found⟩ := exec_theDecoder p w
  rw [Owning.exec_bind, found] at ran
  cases decoder with
  | error _ =>
    cases ran
    refine ⟨fun e same => ?_, fun _ _ => id⟩
    cases same
    exact unbroken_of_theDecoder found
  | ok d =>
    simp only [Owning.exec_bind, Owning.exec_change, Owning.exec_lift, exec_onMemory] at ran
    cases ran
    exact ⟨fun e failed => Memory.unbroken_of_writeText failed, fun _ _ => Memory.sink_of_writeText⟩

/-- Where putting something into the buffer fails with a broken pipe, the buffer has raised it; and what it would raise
later it would have raised before. -/
private theorem raises_of_writeBuffer {outcome : Except Failure Unit}
    (ran : (writeBuffer chunk).exec p w = (outcome, p', w')) :
    (∀ e, outcome = .error e → e.isBrokenPipe → p.SinkRaises w.memory e) ∧
      ∀ e, p'.SinkRaises w'.memory e → p.SinkRaises w.memory e := by
  obtain ⟨outcome', q, memory, wrote, kept⟩ := exec_writeBuffer_wrote chunk p w
  obtain ⟨rfl, rfl, rfl⟩ : outcome = outcome' ∧ p' = q ∧ w' = { w with memory } := by
    simpa only [Prod.mk.injEq] using ran.symm.trans wrote
  unfold writeBuffer at ran
  rw [Owning.exec_bind, Owning.exec_own] at ran
  dsimp only at ran
  split at ran
  · next ref buffer =>
    have text (ran : (do
          let (d, pieces) := (← theDecoder).feed chunk
          Owning.change fun p => { p with decoder := some d }
          onMemory (·.writeText ref (pieces.map Piece.replaced)) : Owning Pump Unit).exec p w
            = (outcome, p', { w with memory })) :
        (∀ e, outcome = .error e → e.isBrokenPipe → p.SinkRaises w.memory e) ∧
          ∀ e, p'.SinkRaises memory e → p.SinkRaises w.memory e := by
      refine ⟨fun e failed broken => ?_, fun e raises => ?_⟩
      · exact nomatch ((writeBuffer_text ran).1 e failed).symm.trans broken
      · obtain ⟨ref', written, number, error, same, found, isError⟩ := raises
        cases buffer.symm.trans (kept.buffer.symm.trans same)
        exact ⟨ref, written, number, error, buffer, (writeBuffer_text ran).2 _ _ found, isError⟩
    split at ran
    · exact text ran
    · exact text ran
    · rw [Owning.exec_lift, exec_onMemory] at ran
      obtain ⟨failed, later⟩ := Prod.mk.inj ran
      obtain ⟨rfl, sameWorld⟩ := Prod.mk.inj later
      refine ⟨fun e same broken => ?_, fun e raises => ?_⟩
      · obtain ⟨written, number, error, found, isError⟩ :=
          Memory.sink_of_writeBytes_broken (failed.trans same) broken
        exact ⟨ref, written, number, error, buffer, found, isError⟩
      · obtain ⟨ref', written, number, error, same, found, isError⟩ := raises
        cases buffer.symm.trans same
        rw [← sameWorld] at found
        obtain ⟨before, found⟩ := Memory.sink_of_writeBytes found
        exact ⟨ref, before, number, error, buffer, found, isError⟩
  · obtain ⟨rfl, later⟩ := Prod.mk.inj ran
    obtain ⟨rfl, -⟩ := Prod.mk.inj later
    refine ⟨fun e same broken => ?_, fun e raises => kept.refused nofun ▸ raises⟩
    cases same
    cases broken

/-- Reading leaves the memory as it is. -/
theorem memory_of_readUpTo {most : Int} {outcome : Except Failure Bytes}
    (ran : (r.readUpTo most).exec w = (outcome, w')) : w'.memory = w.memory := by
  have same := Reader.preserves_readUpTo (r := r) (P := fun w' => w'.memory = w.memory)
    (fun _ _ _ plays same => plays.memory.trans same) (fun _ _ _ _ _ same => same) most w rfl
  rwa [ran] at same

/-- Only the object that it drains into can make a pump fail with a broken pipe while it drains. -/
private theorem raises_of_drainLoop (broken : e.isBrokenPipe) (chunks : Nat) : ∀ {p : Pump} {w : World},
    ((drainLoop r chunks).exec p w).1 = .error e → p.SinkRaises w.memory e := by
  induction chunks with
  | zero => nofun
  | succ chunks ih =>
    intro p w failed
    unfold drainLoop at failed
    rw [Owning.exec_bind, Owning.exec_own] at failed
    dsimp only at failed
    rw [Owning.exec_bind, Owning.exec_lift] at failed
    generalize read : (r.readUpTo p.readLimit).exec w = result at failed
    obtain ⟨outcome, w₁⟩ := result
    rw [← memory_of_readUpTo read]
    cases outcome with
    | error _ =>
      cases failed
      rcases Reader.error_of_readUpTo (congrArg Prod.fst read) with rfl | rfl <;> cases broken
    | ok chunk =>
      dsimp only at failed
      split at failed
      · cases failed
      · rw [Owning.exec_bind] at failed
        generalize wrote : (writeBuffer chunk).exec p w₁ = result at failed
        obtain ⟨outcome, p₂, w₂⟩ := result
        obtain ⟨now, later⟩ := raises_of_writeBuffer wrote
        cases outcome with
        | error _ =>
          cases failed
          exact now e rfl broken
        | ok _ => exact later e (ih (p := { p₂ with moved := p₂.moved + chunk.length }) failed)

/-- Neither closing the reader nor the rest of a text fails with a broken pipe. -/
theorem raises_of_move (drains : p.direction = .drain) (ends : readerOf p.pipeEnd = some r)
    (failed : (move.exec p w).1 = .error e) (broken : e.isBrokenPipe) : p.SinkRaises w.memory e := by
  have other {x : Failure} (isOther : x.isBrokenPipe = false) (same : x = e) : False := by
    subst same
    exact nomatch isOther.symm.trans broken
  rw [exec_move_of_drain drains ends] at failed
  unfold drain at failed
  simp only [Owning.exec_bind, Owning.exec_lift, Sim.exec_world, Owning.exec_attempt] at failed
  generalize looped : (drainLoop r ((r.content w).length + 1)).exec { p with pipeEnd := .gone } w = result at failed
  obtain ⟨outcome, p₁, w₁⟩ := result
  have rest (w₂ : World)
      (failed : ((do Sim.ofExcept outcome; writeTail : Owning Pump Unit).exec p₁ w₂).1 = .error e) :
      p.SinkRaises w.memory e := by
    rw [Owning.exec_bind, Owning.exec_lift, Sim.exec_ofExcept] at failed
    cases outcome with
    | error _ =>
      cases failed
      exact raises_of_drainLoop (p := { p with pipeEnd := .gone }) broken _ (congrArg Prod.fst looped)
    | ok _ =>
      dsimp only at failed
      unfold writeTail at failed
      rw [Owning.exec_bind, Owning.exec_own] at failed
      dsimp only at failed
      split at failed
      · split at failed
        · cases failed
        · rw [Owning.exec_lift, exec_onMemory] at failed
          exact (other (Memory.unbroken_of_writeText failed) rfl).elim
      · cases failed
  simp only [Owning.exec_bind, Owning.exec_lift] at rest
  rcases closeReader_cases r w₁ with ⟨-, closed⟩ | closed | closed
  all_goals
    dsimp only at failed
    rw [closed] at failed
  · exact rest w₁ failed
  · exact rest _ failed
  · exact (other rfl (Except.error.inj failed)).elim

/-! ## What is hidden -/

/-- What a pump that ignores broken pipes says nothing of. -/
def Unheard (outcome : Except Failure Unit) : Prop := outcome = .ok () ∨ ∃ e, outcome = .error e ∧ e.isBrokenPipe

/-- It is the kind of the failure alone that counts. -/
theorem verdict_eq_none_iff (clean : p.error = none) (ignores : p.settings.ignoresBrokenPipe)
    (outcome : Except Failure Unit) : p.verdict outcome = none ↔ Unheard outcome := by
  cases outcome with
  | ok _ => exact iff_of_true clean (.inl rfl)
  | error e =>
    rw [verdict, ignores, Bool.and_true]
    split
    · next broken => exact iff_of_true clean (.inr ⟨e, rfl, broken⟩)
    · next whole => exact iff_of_false (by simp) (by rintro (⟨⟨⟩⟩ | ⟨_, ⟨⟩, broken⟩); exact whole broken)

/-- A pump that has fed a pipe keeps no failure where nobody could read any more, where all of the source was handed
over, and where the source itself has failed with a broken pipe. -/
theorem Feeds.unheard_iff {s₀ s : Supply} {ending closing : Except Failure Unit}
    (feeds : p.Feeds w s₀ ending closing p' s) (clean : p.error = none) (ignores : p.settings.ignoresBrokenPipe)
    (whole : s₀.outflow.broken = false) : p'.error = none ↔ s.outflow.broken ∨ Unheard ending := by
  rw [feeds.error, verdict_eq_none_iff clean ignores]
  cases broken : s.outflow.broken with
  | false =>
    rw [feeds.closes.ok_of_unbroken broken]
    exact ⟨.inr, fun unheard => unheard.resolve_left nofun⟩
  | true =>
    rw [feeds.closes.error_of_broken whole broken]
    exact iff_of_true (.inr ⟨_, rfl, rfl⟩) (.inl rfl)

variable {coding : Coding} {name : Text}

/-- **Ignoring broken pipes hides every broken pipe.** Let a pump that ignores broken pipes have an open end of its own
that suits its direction, and any buffer. It keeps no failure exactly if its move has not failed, or has failed with a
broken pipe, wherever that came from.

A drain reads from its pipe, so a broken pipe can come only from the object that it drains into, and is hidden. When
its move has not failed, in any interleaving, everything up to the end of the pipe has been accepted, unless its reads
are of no byte.

A feed keeps no failure exactly if nobody could read what was left to be delivered, or its source came to the end, or
its source has itself failed with a broken pipe, which is hidden. Unless something could not be delivered, all that the
source handed over has entered the pipe and was counted; and a source that has come to the end has handed over
everything, if the size of the chunks lets it. -/
theorem ignoring_pump_hides_every_broken_pipe (ignores : p.settings.ignoresBrokenPipe) (clean : p.error = none)
    (unmoved : p.moved = 0) (fresh : p.decoder = none) (suited : p.Suited) (holds : p.holding = some d)
    (owned : w.Owned d (p.direction.channel pipe) pipe) :
    (∃ p' w', run.exec p w = (.ok (), p', w') ∧ (p'.error = none ↔ Unheard (move.exec p w).1)) ∧
    (p.direction = .drain →
      (∀ e, (move.exec p w).1 = .error e → e.isBrokenPipe → p.SinkRaises w.memory e) ∧
      ∀ ref x, p.buffer = .object ref → w.memory.get? ref = some x → ref.kind = x.kind →
        x.kind.TakesBytes ∨ x.kind.TakesText →
        (x.kind.TakesText → p.settings.coding = some name ∧ Coding.named name = .ok coding) →
        (∀ s outcome, Drainage.Run (.start p w) s → s.strand.task = .done outcome →
          (s.strand.pump.error = none ↔ Unheard outcome) ∧
          (outcome = .ok () → p.settings.chunkSize ≠ some 0 →
            Drainage.Complete coding ref x pipe (w.content pipe ++ enteredInto pipe s.entries) s)) ∧
        ∀ limit p' w', (do start; join limit : Owning Pump Unit).exec p w = (.ok (), p', w') →
          p'.thread = .finished → ∃ s outcome, Drainage.Run (.start p w) s ∧ s.world = w' ∧ s.strand.pump = p' ∧
            s.strand.task = .done outcome ∧ ∀ e, outcome = .error e → e.isBrokenPipe → p.SinkRaises w.memory e) ∧
    (p.direction = .feed → p.pipeEnd = .descriptor d → ∃ handed ending, p.Offers w.memory handed ending ∧
      ∀ chunks, chunks.flatten = handed →
        ∃ closing p' s, p.Feeds w (.start w ⟨d, [], false⟩ pipe (some chunks)) ending closing p' s ∧
          (p'.error = none ↔ s.outflow.broken ∨ Unheard ending) ∧
          (s.outflow.broken → s.world.hasReader pipe = false) ∧
          (s.outflow.broken = false → s.entered = handed ∧ p'.moved = handed.length)) := by
  refine ⟨?_, fun drains => ?_, fun feeds ends => ?_⟩
  · obtain ⟨p', w', ran, released⟩ := exec_run_releases suited holds (World.mem_of_channel? owned.leads)
    exact ⟨p', w', ran, by rw [released.error]; exact verdict_eq_none_iff clean ignores _⟩
  · unfold Suited at suited
    rw [drains] at suited owned
    obtain ⟨r, ends⟩ := Option.isSome_iff_exists.mp suited
    obtain ⟨isOpen, rfl⟩ := open_of_holding ends holds
    refine ⟨fun e failed broken => raises_of_move drains ends failed broken,
      fun ref x buffer here kind takes coded => ?_⟩
    have sound := Drainage.sound_start clean unmoved fresh ends owned buffer here kind takes
      fun text => ⟨name, coded (kind ▸ text)⟩
    refine ⟨fun s outcome run finished => ⟨?_, fun fine reads => ?_⟩, fun limit p' w' ran finished => ?_⟩
    · rw [(run.told sound ends owned).told outcome finished]
      exact verdict_eq_none_iff clean ignores outcome
    · exact (run.sound sound).complete (fine ▸ finished) reads
    · obtain ⟨s, w₁, run, world, pump, done, same⟩ := Drainage.run_of_join sound drains ends isOpen owned ran finished
      refine ⟨s, _, run, world, pump, done, fun e failed broken => same ▸ ?_⟩
      exact raises_of_move (p := { p with thread := .running }) drains ends failed broken
  · rw [feeds] at owned
    obtain ⟨handed, ending, offers, all⟩ := exists_feeds feeds unmoved ends owned
    refine ⟨handed, ending, offers, fun chunks cut => ?_⟩
    obtain ⟨-, closing, p', s, fed⟩ := all chunks cut
    have now := fed.run.sound (Supply.sound_start owned.known owned.exclusive rfl rfl)
    have pipe : s.pipe = pipe := now.pipe
    refine ⟨closing, p', s, fed, fed.unheard_iff clean ignores rfl, fun broken => pipe ▸ now.lost broken,
      fun whole => ?_⟩
    obtain ⟨entered, moved, -⟩ := now.complete fed.closes.closed whole
    exact ⟨entered.trans cut, by rw [fed.moved, moved]; exact congrArg List.length cut⟩

/-- A system with a pipe that nobody writes to any more, and with a writer of the caller's that takes nothing and
raises a broken pipe. -/
private def clogged : World where
  descriptors := [(10, .readEnd 0)]
  nextDescriptor := 11
  pipes := [[97, 98]]
  memory := { cells := [.sink [] (some (0, .brokenPipe))] }

/-- A pump that drains this pipe into this writer, and does not mind broken pipes. -/
private def spilling : Pump where
  direction := .drain
  pipeEnd := .descriptor 10
  buffer := .object ⟨0, .sink⟩
  name := "drain"
  logger := "pipes"
  settings := { ignoresBrokenPipe := true }

/-- What the writer raises is hidden. -/
theorem spilling_hides_broken_pipe : ∃ p' w' e, (do start; join none : Owning Pump Unit).exec spilling clogged
    = (.ok (), p', w') ∧ p'.error = none ∧ p'.moved = 0 ∧ spilling.SinkRaises clogged.memory e := by
  have owned : clogged.Owned 10 (.readEnd 0) 0 := ⟨by decide, rfl, by decide, ⟨by decide, by simp [clogged]⟩⟩
  obtain ⟨-, drains, -⟩ :=
    @ignoring_pump_hides_every_broken_pipe spilling clogged 10 0 .utf8 [] rfl rfl rfl rfl rfl rfl owned
  obtain ⟨every, own⟩ := (drains rfl).2 _ (.sink [] (some (0, .brokenPipe))) rfl rfl rfl (.inl (.inr (.inr rfl)))
    (by rintro (text | text) <;> cases text)
  obtain ⟨⟨⟩, p', w', ran, tested⟩ := Owning.ok_of_gives
    ((do start; join none : Owning Pump Unit).exec spilling clogged)
    (fun _ p' _ => p'.thread == .finished && p'.error.isNone && p'.moved == 0) (by decide +kernel)
  simp only [Bool.and_eq_true, beq_iff_eq, Option.isNone_iff_eq_none] at tested
  obtain ⟨⟨finished, quiet⟩, moved⟩ := tested
  obtain ⟨s, outcome, run, rfl, rfl, done, raises⟩ := own none p' w' ran finished
  obtain ⟨heard, complete⟩ := every s outcome run done
  rcases heard.mp quiet with fine | ⟨e, failed, broken⟩
  · have length := (complete fine (by decide)).moved
    rw [moved, List.length_append] at length
    exact absurd length (Nat.ne_of_lt (Nat.lt_of_lt_of_le (m := 2) (by omega) (Nat.le_add_right 2 _)))
  · exact ⟨_, _, e, ran, quiet, moved, raises e failed broken⟩

/-- A system with an open pipe. -/
private def openWorld : World where
  descriptors := [(10, .readEnd 0), (11, .writeEnd 0)]
  nextDescriptor := 12
  pipes := [[]]

/-- A pump that is to feed three bytes in chunks of a negative size. -/
private def stalling : Pump where
  direction := .feed
  pipeEnd := .descriptor 11
  buffer := .bytes [97, 98, 99]
  name := "feed"
  logger := "pipes"
  settings := { chunkSize := some (-1), ignoresBrokenPipe := true }

/-- Pumps move nothing and keep no failure, though nothing was written to a pipe that nobody could read: one whose
writer has raised a broken pipe of its own, and one that is to feed chunks of a negative size. -/
theorem quiet_pumps_move_nothing :
    (∃ p' w', (do start; join none : Owning Pump Unit).exec spilling clogged = (.ok (), p', w') ∧
      p'.thread = .finished ∧ p'.error = none ∧ p'.moved = 0) ∧
    ∃ p' w', start.exec stalling openWorld = (.ok (), p', w') ∧ p'.thread = .finished ∧ p'.error = none ∧
      p'.moved = 0 ∧ w'.hasReader 0 := by
  obtain ⟨⟨⟩, p₁, w₁, drained, spills⟩ := Owning.ok_of_gives
    ((do start; join none : Owning Pump Unit).exec spilling clogged)
    (fun _ p' _ => p'.thread == .finished && p'.error.isNone && p'.moved == 0) (by decide +kernel)
  obtain ⟨⟨⟩, p₂, w₂, fed, stalls⟩ := Owning.ok_of_gives (start.exec stalling openWorld)
    (fun _ p' w' => p'.thread == .finished && p'.error.isNone && p'.moved == 0 && w'.hasReader 0) (by decide +kernel)
  simp only [Bool.and_eq_true, beq_iff_eq, Option.isNone_iff_eq_none] at spills stalls
  obtain ⟨⟨finished₁, quiet₁⟩, moved₁⟩ := spills
  obtain ⟨⟨⟨finished₂, quiet₂⟩, moved₂⟩, stays⟩ := stalls
  exact ⟨⟨_, _, drained, finished₁, quiet₁, moved₁⟩, _, _, fed, finished₂, quiet₂, moved₂, stays⟩

end Pump

end Pipework
