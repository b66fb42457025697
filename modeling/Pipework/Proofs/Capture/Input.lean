import Pipework.Proofs.Capture.Encodings
import Pipework.Proofs.Capture.Pieces

/-!
# Input that is not taken

When `read` returns normally, the pump that feeds its input has had nothing to tell of, so that all of the input
has entered the pipe to the graph. It may still be there: the pump learns that nobody can read only from what it
writes after that. So what `read` reports is that the pipe did not take all of the input, and not that the graph
did not read it (`Engine.read_reports_what_is_not_taken`).
-/

namespace Pipework

namespace Handle

/-- At a place among the pumps of a handle stands this one. -/
def PumpAt (n : Nat) (p : Pump) (h : Handle) (_ : World) : Prop := h.pumps[n]? = some p

namespace PumpAt

variable {n : Nat} {p : Pump}

theorem closeEndpoint (s : Stream) : (Handle.closeEndpoint s).Preserves (PumpAt n p) := by
  intro h w there
  rw [PumpAt, closeEndpoint_handle, dropEndpoint_handle]
  cases s <;> exact there

theorem lift {α : Type} (m : Sim α) : (liftM m : Owning Handle α).Preserves (PumpAt n p) := .lift fun _ _ => id

theorem statuses : Handle.statuses.Preserves (PumpAt n p) := .bind .own fun _ => .bind (lift _) fun _ => .pure _

section

variable (finished : p.thread = .finished)
include finished

/-- To wait for a pump that has finished leaves it as it is. -/
private theorem exec_joinBy (deadline : Option Time) (w : World) :
    ∃ w', (joinBy deadline).exec p w = (.ok (), p, w') := by
  unfold joinBy Pump.join
  rw [Owning.exec_bind, Owning.exec_lift, exec_remaining]
  dsimp only
  rw [Owning.exec_bind, Owning.exec_own]
  dsimp only
  rw [finished]
  exact ⟨_, rfl⟩

private theorem onPumps (deadline : Option Time) {pumps : List Pump} (there : pumps[n]? = some p) (w : World) :
    (Id.run ((Handle.onPumps (joinBy deadline) pumps).run w)).1.2[n]? = some p := by
  induction pumps generalizing n w with
  | nil => cases there
  | cons q rest ih =>
    rw [run_onPumps_cons]
    cases n with
    | zero =>
      cases there
      obtain ⟨w', joined⟩ := exec_joinBy finished deadline w
      rw [joined]
      rfl
    | succ n =>
      generalize (joinBy deadline).exec q w = result
      obtain ⟨outcome, q', w'⟩ := result
      cases outcome with
      | error e => exact there
      | ok _ => exact ih there w'

theorem eachPump (deadline : Option Time) : (Handle.eachPump (joinBy deadline)).Preserves (PumpAt n p) := by
  intro h w there
  rw [exec_eachPump]
  exact onPumps finished deadline there w

theorem wait (limit : Limit) : (Handle.wait limit).Preserves (PumpAt n p) :=
  .bind (closeEndpoint _) fun _ => .bind (lift _) fun _ => .bind .own fun _ => .bind (lift _) fun _ =>
    .bind (eachPump finished _) fun _ => .bind (lift _) fun _ => .bind .own fun _ => .bind (lift _) fun _ => statuses

theorem check (limit : Limit) : (Handle.check limit).Preserves (PumpAt n p) := by
  refine .bind (wait finished limit) fun statuses => ?_
  dsimp only
  split
  · exact .bind (.bind .own fun _ => lift _) fun _ => .bind (.throw _) fun _ => .pure _
  · exact .pure _

theorem close (discards : Bool) : (Handle.close discards).Preserves (PumpAt n p) := by
  refine .bind (closeEndpoint _) fun _ => .bind (closeEndpoint _) fun _ => .bind (closeEndpoint _) fun _ =>
    .bind .own fun _ => .bind (lift _) fun _ => .bind (eachPump finished none) fun _ => ?_
  split
  · exact .bind (lift _) fun _ => statuses
  · exact statuses

/-- To finish a handle leaves each pump as it is that has finished. -/
theorem finish : Engine.finish.Preserves (PumpAt n p) :=
  .bind (close finished _) fun _ => .bind (check finished _) fun _ => .pure _

end

end PumpAt

/-- Finishing a handle reports the error of its first pump, which has finished before, or else that something else
could not be delivered, or it never comes to its end. -/
theorem Ready.finish_reports {h : Handle} {w : World} {p : Pump} (ready : h.Ready w) (first : h.pumps[0]? = some p)
    (finished : p.thread = .finished) : ∃ outcome h' w', Engine.finish.exec h w = (outcome, h', w') ∧
      h.Along w h' w' ∧ (outcome = .error .deadlock ∨ (outcome = .ok () → p.error = none) ∧
        (p.error = some (.system .brokenPipe) → outcome = .error (.system .brokenPipe))) := by
  obtain ⟨undelivered, outcome, h', w', flushed, ran, along, ended⟩ := ready.exec_finish
  have there : h'.pumps[0]? = some p := by
    have kept := PumpAt.finish finished h w first
    rwa [ran] at kept
  refine ⟨outcome, h', w', ran, along, ended.imp And.left fun ⟨_, reported⟩ => ?_⟩
  rw [reported]
  refine ⟨fun fine => ?_, fun broken => ?_⟩
  · exact ((verdict_ok_iff _ _ _).mp fine).2.1 p (List.mem_of_getElem? there)
  · rw [← List.head?_eq_getElem?] at there
    obtain ⟨rest, pumps⟩ := List.head?_eq_some_iff.mp there
    obtain ⟨e?, v, closed, -, -, brokenPipe⟩ := ready.along.closeEndpoint ready.sound .stdin
    rw [closed] at flushed
    cases flushed
    unfold verdict
    cases undelivered with
    | some e =>
      rw [brokenPipe e rfl]
      rfl
    | none =>
      rw [firstError?, pumps, Option.none_or, List.findSome?_cons, broken]

/-- Reading the stdout of a handle comes to its end, or waits for ever. -/
theorem exec_read_cases {h : Handle} {w : World} {r : Reader} {pipe : Nat} (output : h.stdout = some r)
    (isOpen : r.closed = false) (leads : w.pipeOf? r.descriptor = some pipe) : ∃ outcome v,
      Handle.read.exec h w = (outcome, h, v) ∧ ∀ e, outcome = .error e → e = .deadlock := by
  have reads := exec_read_of_output output w
  rw [Reader.exec_readAll_eq isOpen leads] at reads
  refine ⟨_, _, reads, ?_⟩
  obtain ⟨v, _, -, ⟨waited, -⟩ | ⟨waited, -⟩⟩ := Sim.exec_runUntil_endless r.atEnd w
  · rw [waited]
    rintro _ ⟨⟩
  · rw [waited]
    rintro _ ⟨⟩
    rfl

end Handle

namespace Engine

variable {w w₁ : World} {e e₁ : Engine} {graph i : Item} {b : Bytes} {handle : Handle}

/-- What `read` comes to when a graph has been started: it never comes to its end, or it ends with what finishing the
handle reports. -/
private theorem read_cases {outcome : Except Failure Bytes} {e' : Engine} {w' : World} {p : Pump}
    (sound : w.Sound) (hosted : handle.graph.Hosted (numbered w))
    (spawned : (spawn graph (readValues w i)).exec e (numbered w) = (.ok handle, e₁, w₁))
    (first : handle.pumps[0]? = some p) (finished : p.thread = .finished)
    (taken : (read graph (some i)).exec e w = (outcome, e', w')) : outcome = .error .deadlock ∨
      ∃ h', handle.Along w₁ h' w' ∧ (outcome.isOk → p.error = none) ∧
        (p.error = some (.system .brokenPipe) → outcome = .error (.system .brokenPipe)) := by
  have numbered := sound.passes (passes_numbered w)
  obtain ⟨_, _, _, _, _, _, succeeds⟩ := spawn_ok numbered spawned
  have ready := succeeds.ready numbered spawned
  obtain ⟨d, there⟩ := Option.isSome_iff_exists.mp (succeeds.hasEndpoint (s := .stdout) rfl)
  obtain ⟨r, output, -⟩ := Option.map_eq_some_iff.mp there
  obtain ⟨_, pipe, owned⟩ := (succeeds.handle_owned numbered hosted).reader .stdout r output
  obtain ⟨-, _, -, rfl⟩ := succeeds.reader_cases (s := .stdout) output
  obtain ⟨read, v, reads, endless⟩ := Handle.exec_read_cases output rfl owned.pipeOf?
  have along : handle.Along w₁ handle v := by
    have kept := Handle.Tended.read ready.sound handle w₁ ready.along
    rwa [reads] at kept
  rw [exec_read_input, readWith, Owning.exec_bind, spawned] at taken
  dsimp only at taken
  rw [Owning.exec_bind, Owning.exec_liftRunOn, reads] at taken
  dsimp only at taken
  cases read with
  | error failure =>
    obtain rfl := endless failure rfl
    obtain ⟨h', _, v', _, _, discarded, -⟩ := (ready.stays along).exec_discard
    rw [exec_settleHandle_error _ discarded] at taken
    cases taken
    exact .inl rfl
  | ok bytes =>
    obtain ⟨ending, h', v', finishes, along', ended⟩ := (ready.stays along).finish_reports first finished
    rw [exec_settleHandle_ok bytes finishes] at taken
    cases taken
    rcases ended with rfl | ⟨quiet, broken⟩
    · exact .inl rfl
    · refine .inr ⟨h', Handle.Tended.trans along along', fun fine => quiet ?_, fun isBroken => ?_⟩
      · cases ending with
        | ok _ => rfl
        | error _ => cases fine
      · rw [broken isBroken]
        rfl

/-- **Reading reports input that is not taken.** From the moment when its pump is ready, the input of a `read` is
brought to the graph in every interleaving, as far as somebody can read it. When `read` returns normally, all of the
input has entered the pipe, and each byte has been read or is still there; when not all of it has, `read` reports
a broken pipe. -/
theorem read_reports_what_is_not_taken (sound : w.Sound) (strict : e.settings.pumps.ignoresBrokenPipe = false)
    (content : i.it = .bytes b) (spawned : (spawn graph (readValues w i)).exec e (numbered w) = (.ok handle, e₁, w₁))
    (hosted : handle.graph.Hosted (numbered w)) :
    ∃ s₀, Provides graph (readValues w i) e (numbered w) handle.graph [] (e.settings.pumps.cut? b) s₀ ∧
      s₀.Brings e.settings.pumps b ∧
      ∀ outcome e' w', (read graph (some i)).exec e w = (outcome, e', w') → outcome = .error .deadlock ∨
        ∃ s, Supply.Run s₀ s ∧ s.world = w' ∧ s.outflow.writer.closed ∧
          (outcome.isOk → ¬ e.settings.pumps.SkipsAll →
            s.entered = b ∧ b = s.taken ++ w'.content s.pipe ∧ w'.hasWriter s.pipe = false) ∧
          ((∃ n > 0, e.settings.pumps.chunkSize = some n) → s.entered ≠ b →
            outcome = .error (.system .brokenPipe)) := by
  have numbered := sound.passes (passes_numbered w)
  obtain ⟨_, _, _, _, _, _, succeeds⟩ := spawn_ok numbered spawned
  have given : i.it.toBuffer = (Input.bytes b).toBuffer := by
    rw [content]
    rfl
  have named (t : Text) (isText : Input.bytes b = .text t) :
      ∃ name, e.settings.pumps.coding = some name ∧ Coding.named name = .ok .utf8 := nomatch isText
  obtain ⟨s₀, p, s, provides, first, finished, told, runs⟩ :=
    succeeds.supplies numbered hosted spawned succeeds.feeds_input given named
  have brings : s₀.Brings e.settings.pumps b := Provides.brings provides
  refine ⟨s₀, provides, brings, fun outcome e' w' taken => ?_⟩
  refine (read_cases sound hosted spawned first finished taken).imp_right fun ⟨h', along, quiet, broken⟩ => ?_
  obtain ⟨entries, gone, run⟩ := runs _ along.run
  refine ⟨_, run, rfl, told.closed, fun fine feeds => ?_, fun ⟨n, positive, isSize⟩ short => ?_⟩
  · obtain ⟨entered, noWriter⟩ := brings.done _ run feeds strict (told.quiet (quiet fine))
    exact ⟨entered, entered.symm.trans (brings.begun _ run).2, noWriter⟩
  · have feeds := PumpSettings.feeds_of_positive positive isSize
    have notDone : p.error ≠ none := fun clean => short (brings.done _ run feeds strict (told.quiet clean)).1
    have sourced : s.outflow.failed = false := by
      obtain ⟨chunks, cut⟩ := PumpSettings.cut?_of_positive (b := b) positive isSize
      obtain ⟨d, starts⟩ := provides.starts
      refine (run.sound provides.sound).failed.trans ?_
      rw [starts]
      change ((Input.bytes b).encodedIn? .utf8 |>.bind e.settings.pumps.cut?).isNone = false
      rw [Input.encodedIn?, Option.bind_some, cut]
      rfl
    exact broken ((told.refused sourced).resolve_left notDone)

/-- A system in which `a` reads nothing and takes its time. -/
private def idle : World := { programs := [([.char 'a'], { reads := .nothing, delay := Time.seconds 1 })] }

private theorem idle_sound : idle.Sound := .ofNew rfl rfl (by simp [idle]) rfl

/-- One byte. -/
private def byte : Item := ⟨.constant "bytes", .bytes [120]⟩

/-- Whether `a` can be started to be read with this byte, without a descriptor of its caller and with the first pipe
as its stdin, and `read` returns normally when all processes have ended and the byte is still in that pipe. -/
private def leavesByte : Bool :=
  (match (spawn (letterItem 'a') (readValues idle byte)).exec {} (numbered idle) with
  | (.ok h, _, _) =>
    ((Chore.makings (h.graph.chores [])).all fun
      | .given .. => false
      | _ => true) &&
    decide ((.near [] .stdin, .readEnd 0) ∈ h.graph.channels idle)
  | _ => false) &&
  match (read (letterItem 'a') (some byte)).exec {} idle with
  | (.ok [], _, w') => w'.content 0 == [120] && w'.processes.all fun p => !p.alive
  | _ => false

private theorem exists_read : ∃ handle e₁ w₁ e' w',
    (spawn (letterItem 'a') (readValues idle byte)).exec {} (numbered idle) = (.ok handle, e₁, w₁) ∧
    handle.graph.Hosted (numbered idle) ∧ (.near [] .stdin, .readEnd 0) ∈ handle.graph.channels idle ∧
    (read (letterItem 'a') (some byte)).exec {} idle = (.ok [], e', w') ∧ w'.content 0 = [120] ∧
    ∀ p ∈ w'.processes, p.alive = false := by
  have tested : leavesByte = true := by decide +kernel
  unfold leavesByte at tested
  obtain ⟨started, read⟩ := (Bool.and_eq_true ..).mp tested
  split at started
  · next handle e₁ w₁ spawned =>
    obtain ⟨own, leads⟩ := (Bool.and_eq_true ..).mp started
    split at read
    · next e' w' taken =>
      obtain ⟨left, ended⟩ := (Bool.and_eq_true ..).mp read
      exact ⟨handle, e₁, w₁, e', w', spawned, fun d c made => (nomatch List.all_eq_true.mp own _ made),
        of_decide_eq_true leads, taken, beq_iff_eq.mp left, by simpa using ended⟩
    · cases read
  · cases started

/-- One byte that nobody reads has been taken when `read` returns. -/
theorem byte_is_taken : ∃ handle : Handle, ∃ e' w' s₀ s,
    (read (letterItem 'a') (some byte)).exec {} idle = (.ok [], e', w') ∧
    Provides (letterItem 'a') (readValues idle byte) {} (numbered idle) handle.graph []
      (({} : PumpSettings).cut? [120]) s₀ ∧
    Supply.Run s₀ s ∧ s.world = w' ∧ [120] = s.taken ++ w'.content s.pipe := by
  obtain ⟨handle, _, _, e', w', spawned, hosted, -, taken, -⟩ := exists_read
  obtain ⟨s₀, provides, -, reads⟩ := read_reports_what_is_not_taken (i := byte) idle_sound rfl rfl spawned hosted
  obtain ⟨s, run, same, -, whole, -⟩ := (reads _ _ _ taken).resolve_left nofun
  refine ⟨handle, e', w', s₀, s, taken, provides, run, same, (whole rfl ?_).2.1⟩
  exact PumpSettings.feeds_of_positive (n := 65536) (by decide) rfl

/-- So `read` returns normally and does not report that the graph has not read its input: the byte is still in the
pipe that was the stdin of the command, which has ended. -/
theorem unread_byte_is_not_reported : ∃ handle e₁ w₁ e' w',
    (spawn (letterItem 'a') (readValues idle byte)).exec {} (numbered idle) = (.ok handle, e₁, w₁) ∧
    (.near [] .stdin, .readEnd 0) ∈ handle.graph.channels idle ∧
    (read (letterItem 'a') (some byte)).exec {} idle = (.ok [], e', w') ∧ w'.content 0 = [120] ∧
    ∀ p ∈ w'.processes, p.alive = false := by
  obtain ⟨handle, e₁, w₁, e', w', spawned, -, leads, taken, left, ended⟩ := exists_read
  exact ⟨handle, e₁, w₁, e', w', spawned, leads, taken, left, ended⟩

end Engine

end Pipework
