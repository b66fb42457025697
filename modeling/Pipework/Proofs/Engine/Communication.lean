import Pipework.Proofs.Engine.Ownership

/-!
# Calls after a start

`communicate` loses nothing, however the pumps, the caller's reading and the processes interleave
(`spawn_communicates_losslessly`). Only the settings of an engine make it do with less: by intent where broken
pipes are ignored, and with chunk sizes that are not positive (`settings_let_calls_fall_short`).
-/

namespace Pipework

/-- A call has all of stderr, and its input has entered stdin after what was written. -/
def Exchange.Complete (c : Exchange.Call) (w₀ : World) (s : Exchange) : Prop :=
  (∀ i, s.inflow .stderr = some i → i.early ++ i.taken = w₀.content i.pipe ++ s.entered i.pipe) ∧
    ∀ o, s.outflow = some o → ∃ b, c.encoded? = some b ∧ s.entered o.pipe = o.written ++ b

namespace Engine

variable {item : Item} {values : RedirectValues} {e e' : Engine} {w w' : World} {handle : Handle}

/-- **A call loses nothing.** In every interleaving after a start, a call that has returned has all of
stdout and stderr, has passed on its input in order and ended it, and has reaped every process. The calls of
the program itself, after any writes, are among these. -/
theorem spawn_communicates_losslessly (sound : w.Sound) (hosted : handle.graph.Hosted w)
    (spawned : (spawn item values).exec e w = (.ok handle, e', w')) :
    (∀ input s, Exchange.Run (handle.call input) (handle.exchange w') s → s.stage = .returned →
      (handle.exchange w').SameEnds s ∧ s.Lossless (handle.call input) w') ∧
    ∀ writes input limit output h₁ w₁,
      (do Handle.writeAll writes
          Handle.communicate (input.map Input.toBuffer) limit).exec handle w' = (.ok output, h₁, w₁) →
      ∃ s, Exchange.Run (handle.call input) (handle.exchange w') s ∧
        s.Returns handle writes.flatten output h₁ w₁ := by
  obtain ⟨w₁, w₂, σ, events, launching, starts, succeeds⟩ := spawn_ok sound spawned
  have owned := succeeds.handle_owned sound hosted
  exact ⟨fun input s run returned =>
      ⟨run.sameEnds, run.lossless owned.sound (owned.advanced input) returned⟩,
    fun writes input limit output h₁ w₁ ran => owned.communicates ran⟩

/-! ## Some calls -/

/-- A command with some redirects. -/
def commanded (r : Redirects) : Item :=
  (Graph.leaf 0 ⟨.own 0, .command { program := [.char 'a'], program_ne_nil := by simp } []⟩ r).toItem

/-- A command with ends of stdin and stdout for the caller. -/
def talking : Item := commanded { stdin := some Target.callerEnd, stdout := some Target.callerEnd }

/-- Whether a start succeeds without a descriptor from its caller, and then an operation of the handle that is
as it is tested for. -/
def answers {α : Type} (item : Item) (e : Engine) (w : World) (call : Owning Handle α)
    (test : Handle → World → α → Handle → World → Bool) : Bool :=
  match (spawn item {}).exec e w with
  | (.error _, _, _) => false
  | (.ok h, _, w') =>
    ((Chore.makings (h.graph.chores [])).all fun
      | .given .. => false
      | _ => true) &&
    match call.exec h w' with
    | (.error _, _, _) => false
    | (.ok output, h₁, w₁) => test h w' output h₁ w₁

theorem exists_call {α : Type} {call : Owning Handle α} {test : Handle → World → α → Handle → World → Bool}
    (tested : answers item e w call test) :
    ∃ handle e' w' output h₁ w₁, (spawn item {}).exec e w = (.ok handle, e', w') ∧
      handle.graph.Hosted w ∧ call.exec handle w' = (.ok output, h₁, w₁) ∧
      test handle w' output h₁ w₁ := by
  unfold answers at tested
  split at tested
  · cases tested
  · next handle e' w' spawned =>
    obtain ⟨own, tested⟩ := (Bool.and_eq_true ..).mp tested
    split at tested
    · cases tested
    · next output h₁ w₁ called =>
      exact ⟨handle, e', w', output, h₁, w₁, spawned,
        fun d c made => (nomatch List.all_eq_true.mp own _ made), called, tested⟩

/-- An echo is started, and the caller writes `h` and calls with `i`. -/
theorem spawn_echo_communicates_losslessly :
    ∃ handle e' w' h₁ w₁ s, (spawn talking {}).exec {} (smallWorld ['a']) = (.ok handle, e', w') ∧
      (do Handle.writeAll [[104]]
          Handle.communicate (some (.bytes [105])) Handle.endless).exec handle w'
        = (.ok (some [104, 105]), h₁, w₁) ∧
      Exchange.Run (handle.call (some (.bytes [105]))) (handle.exchange w') s ∧
      s.Returns handle [104] (some [104, 105]) h₁ w₁ ∧
      s.Lossless (handle.call (some (.bytes [105]))) w' := by
  have tested : answers talking {} (smallWorld ['a'])
      (do Handle.writeAll [[104]]
          Handle.communicate (some (.bytes [105])) Handle.endless)
      (fun _ _ output _ _ => output == some [104, 105]) := by
    decide +kernel
  obtain ⟨handle, e', w', output, h₁, w₁, spawned, hosted, called, echoed⟩ := exists_call tested
  rw [beq_iff_eq] at echoed
  subst echoed
  obtain ⟨lossless, calls⟩ := spawn_communicates_losslessly (smallWorld_sound ['a']) hosted spawned
  obtain ⟨s, reached, returns⟩ := calls [[104]] (some (.bytes [105])) _ _ _ _ called
  exact ⟨handle, e', w', h₁, w₁, s, spawned, called, reached, returns,
    (lossless _ s reached returns.stage).2⟩

/-! ## Calls that fall short -/

/-- After a start a call returns normally that is not complete. -/
def FallsShort (item : Item) (e : Engine) (w : World) (input : Option Input) : Prop :=
  ∃ handle e' w' s, (spawn item {}).exec e w = (.ok handle, e', w') ∧
    ((Handle.communicate (input.map Input.toBuffer) Handle.endless).exec handle w').1.isOk ∧
    Exchange.Run (handle.call input) (handle.exchange w') s ∧ s.stage = .returned ∧
    ¬ s.Complete (handle.call input) w'

/-- An engine that ignores broken pipes. -/
private def lenient : Engine := { settings := { pumps := { ignoresBrokenPipe := true } } }

/-- A system in which `a` reads nothing. -/
private def idleWorld : World := { programs := [([.char 'a'], { reads := .nothing })] }

/-- A call that returns normally after a start is a run, with all that is known of one. -/
theorem exists_run (input : Option Input) {limit : Handle.Limit} {output : Option Bytes}
    {h₁ : Handle} {w₁ : World} (sound : w.Sound) (hosted : handle.graph.Hosted w)
    (spawned : (spawn item values).exec e w = (.ok handle, e', w'))
    (called : (Handle.communicate (input.map Input.toBuffer) limit).exec handle w' = (.ok output, h₁, w₁)) :
    ∃ s, Exchange.Run (handle.call input) (handle.exchange w') s ∧ s.Returns handle [] output h₁ w₁ ∧
      s.Sound w' ∧ s.Lossless (handle.call input) w' := by
  obtain ⟨_, _, _, _, _, _, succeeds⟩ := spawn_ok sound spawned
  have owned := succeeds.handle_owned sound hosted
  have unwritten : (do
      Handle.writeAll []
      Handle.communicate (input.map Input.toBuffer) limit).exec handle w' = (.ok output, h₁, w₁) := called
  obtain ⟨s, run, returns⟩ := owned.communicates unwritten
  exact ⟨s, run, returns, (run.sound owned.sound (owned.advanced input)).1,
    run.lossless owned.sound (owned.advanced input) returns.stage⟩

/-- A handle with ends of two pipes and one process, which may end before anything is passed on to it. -/
private def Stalls (h : Handle) (w : World) : Prop :=
  (h.stdin = some ⟨11, [], false⟩ ∧ h.stdout = some ⟨12, false⟩ ∧ h.stderr = none ∧ h.pids = [1001]) ∧
  (w.pipeOf? 11 = some 0 ∧ w.pipeOf? 12 = some 1) ∧
  (h.settings.cut? [120] = some [[120]] ∧ h.settings.ignoresBrokenPipe = true) ∧
  (w.process? 1001).map Process.alive = some true ∧
  ((w.endProcess 1001 0).deliver? (.writeEnd 0) [120]).isNone ∧
  (((w.endProcess 1001 0).shut 11).content 1 = [] ∧ ((w.endProcess 1001 0).shut 11).hasWriter 1 = false) ∧
  ((w.endProcess 1001 0).shut 11).exit? 1001 = some (some 0)

private instance (h : Handle) (w : World) : Decidable (Stalls h w) := by
  unfold Stalls
  infer_instance

/-- A call can return on such a handle when nothing has entered stdin. -/
private theorem Stalls.returns {h : Handle} {w : World} (stalls : Stalls h w) :
    ∃ s, Exchange.Run (h.call (some (.bytes [120]))) (h.exchange w) s ∧ s.stage = .returned ∧
      ¬ s.Complete (h.call (some (.bytes [120]))) w := by
  obtain ⟨⟨writer, reader, stderr, pids⟩, ⟨input, output⟩, ⟨cut, lenient⟩, running, refused,
    ⟨empty, noWriter⟩, exited⟩ := stalls
  obtain ⟨p, found, alive⟩ := Option.map_eq_some_iff.mp running
  have chunks : (h.call (some (.bytes [120]))).chunks? = some [[120]] := cut
  have stdin : (h.exchange w).outflow = some { writer := ⟨11, [], false⟩, pipe := 0, written := [] } := by
    rw [Handle.exchange, writer, Option.map_some, input]
    rfl
  have begun := Exchange.Step.call (c := h.call (some (.bytes [120]))) (s := h.exchange w) rfl
    fun _ => by rw [stdin]; rfl
  rw [chunks, stdin] at begun
  have ended := Relation.ReflTransGen.tail (.single begun) (.acts (.ends found alive 0))
  have moved := ended.tail (.move rfl rfl rfl)
  have lost := moved.tail (.lose (by rintro ⟨⟩) rfl rfl (Option.isNone_iff_eq_none.mp refused))
  have read := lost.tail (.ended rfl fun i there => by
    rw [Handle.exchange] at there
    simp only [Handle.reader?, reader, Option.map_some, output, Option.getD_some] at there
    cases there
    exact ⟨empty, noWriter⟩)
  have joined := read.tail (.joined rfl
    (by rintro _ ⟨⟩; exact ⟨rfl, fun _ => lenient, by rintro ⟨⟩⟩)
    (by simp [Handle.exchange, Handle.reader?, stderr]))
  have waiting : (h.call (some (.bytes [120]))).pids = [1001] := pids
  rw [waiting] at joined
  refine ⟨_, (joined.tail (.reaped rfl exited)).tail (.returns rfl), rfl, fun complete => ?_⟩
  obtain ⟨_, ⟨⟩, entered⟩ := complete.2 _ rfl
  cases entered

/-- A command that reads nothing ends before the pump passes on anything, and the engine ignores that. -/
private theorem lenient_fallsShort : FallsShort talking lenient idleWorld (some (.bytes [120])) := by
  have tested : answers talking lenient idleWorld (Handle.communicate (some (.bytes [120])) Handle.endless)
      (fun h w _ _ _ => Stalls h w) := by
    decide +kernel
  obtain ⟨handle, e', w', output, h₁, w₁, spawned, -, called, stalls⟩ := exists_call tested
  obtain ⟨s, run⟩ := (of_decide_eq_true stalls).returns
  refine ⟨handle, e', w', s, spawned, ?_, run⟩
  rw [Option.map_some, Input.toBuffer, called]
  rfl

/-- An engine whose pumps move so many bytes at a time. -/
def sized (n : Int) : Engine := { settings := { pumps := { chunkSize := some n } } }

/-- There are no chunks of a negative size, so an echo has nothing to return. -/
private theorem negative_fallsShort :
    FallsShort talking (sized (-1)) (smallWorld ['a']) (some (.bytes [120])) := by
  have tested : answers talking (sized (-1)) (smallWorld ['a'])
      (Handle.communicate (some (.bytes [120])) Handle.endless)
      (fun h _ _ _ _ => h.settings.chunkSize == some (-1) && h.stdin.map Writer.held == some []) := by
    decide +kernel
  obtain ⟨handle, e', w', output, h₁, w₁, spawned, hosted, called, tested⟩ := exists_call tested
  rw [Bool.and_eq_true, beq_iff_eq, beq_iff_eq] at tested
  obtain ⟨size, held⟩ := tested
  obtain ⟨s, run, returns, -, lossless⟩ :=
    exists_run (some (.bytes [120])) (smallWorld_sound ['a']) hosted spawned called
  refine ⟨handle, e', w', s, spawned, ?_, run, returns.stage, fun complete => ?_⟩
  · rw [Option.map_some, Input.toBuffer, called]
    rfl
  · obtain ⟨r, stdin, unwritten⟩ := Option.map_eq_some_iff.mp held
    have written := returns.written
    rw [stdin, Option.map_some, unwritten] at written
    obtain ⟨o, out, nothing⟩ := Option.map_eq_some_iff.mp written
    have skipped := lossless.skipped ⟨rfl, -1, by decide, size⟩ o out
    obtain ⟨_, ⟨⟩, entered⟩ := complete.2 o out
    rw [entered, nothing] at skipped
    exact absurd (List.prefix_nil.mp skipped) (List.cons_ne_nil _ _)

/-- A command with ends of stdout and stderr for the caller. -/
private def reporting : Item :=
  commanded { stdout := some Target.callerEnd, stderr := some Target.callerEnd }

/-- A system in which `a` writes an `e` to stderr. -/
private def loudWorld : World := { programs := [([.char 'a'], { err := [.bytes [101]] })] }

/-- A pump that reads nothing at a time is at the end of stderr at once. -/
private theorem zero_fallsShort : FallsShort reporting (sized 0) loudWorld none := by
  have tested : answers reporting (sized 0) loudWorld (Handle.communicate none Handle.endless)
      (fun h w _ _ w₁ => ((h.exchange w).inflow .stderr).map Inflow.pipe == some 1 &&
        w₁.content 1 == [101]) := by
    decide +kernel
  obtain ⟨handle, e', w', output, h₁, w₁, spawned, hosted, called, tested⟩ := exists_call tested
  rw [Bool.and_eq_true, beq_iff_eq, beq_iff_eq] at tested
  obtain ⟨stderr, left⟩ := tested
  have sound : loudWorld.Sound := .ofNew rfl rfl (by simp [loudWorld]) rfl
  obtain ⟨s, run, returns, sound, -⟩ := exists_run none sound hosted spawned called
  refine ⟨handle, e', w', s, spawned, ?_, run, returns.stage, fun complete => ?_⟩
  · rw [Option.map_none, called]
    rfl
  · obtain ⟨i, there, pipe⟩ := Option.map_eq_some_iff.mp ((run.sameEnds.inflow .stderr).trans stderr)
    have conserved := (sound.inflow .stderr i there).conserved
    have whole := complete.1 i there
    rw [Exchange.entered] at whole
    rw [← whole, pipe, returns.world, left] at conserved
    simp at conserved

/-- The settings of an engine can make calls fall short, which return normally all the same. -/
theorem settings_let_calls_fall_short :
    FallsShort talking lenient idleWorld (some (.bytes [120])) ∧
      FallsShort talking (sized (-1)) (smallWorld ['a']) (some (.bytes [120])) ∧
      FallsShort reporting (sized 0) loudWorld none :=
  ⟨lenient_fallsShort, negative_fallsShort, zero_fallsShort⟩

end Engine

end Pipework
