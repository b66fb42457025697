import Pipework.Proofs.Exchange.Soundness

/-!
# Nothing is lost in an exchange

What is over stays over: a pipe that came to its end, a process that was waited for, and each part of a call
before the stage that it has come to (`Exchange.Advanced`, `Step.advanced`). So when a call has returned
normally, nothing is missing, in any interleaving (`Run.lossless`).
-/

namespace Pipework

open World (Ended Gains)

variable {c : Exchange.Call} {w₀ : World} {s s' : Exchange}

/-- What the caller's end of stdin has from a call that has begun. -/
structure Outflow.Fed (c : Exchange.Call) (o : Outflow) : Prop where
  fed : o.fed = (c.chunks?.getD []).flatten
  failed : o.failed = c.chunks?.isNone

namespace Exchange

/-! ## What is over -/

/-- A pipe of the caller that has come to its end stays there. -/
theorem Step.stays_ended (step : Step c s s') (sound : s.Sound w₀) {t : Stream} {i : Inflow}
    (there : s.inflow t = some i) (ended : s.world.Ended i.pipe) : s'.world.Ended i.pipe := by
  have mine := sound.inflow t i there
  have noWriter := (World.holders_eq_zero_iff.mp
    (World.hasWriter_eq_false_iff.mp ended.noWriter)).2
  cases step with
  | acts acts =>
    have gains := acts.gains mine.exclusive.processes
    rw [acts.silent noWriter] at gains
    exact ended.gains gains mine.known
  | elsewhere apart => exact ended.gains (apart.gains (.inr ⟨t, i, there, rfl⟩)) mine.known
  | pass stdin isOpen held delivered =>
    have gains : Gains i.pipe _ s.world _ := World.gains_deliver? delivered
    rw [Channel.entries, enteredInto_other (sound.apart _ stdin t i there)] at gains
    exact ended.gains gains mine.known
  | close stage stdin isOpen left held => exact ended.gains World.gains_shut mine.known
  | lose stage stdin isOpen refused => exact ended.gains World.gains_shut mine.known
  | @read u j stage elsewhere isOpen count =>
    by_cases same : j.pipe = i.pipe
    · refine ⟨?_, World.hasWriter_eq_false_iff.mpr (World.releases_consume.holders rfl
        (World.hasWriter_eq_false_iff.mp ended.noWriter))⟩
      change (s.world.setContent j.pipe _).content i.pipe = []
      rw [World.content_setContent s.world _ mine.known, if_pos same.symm, same, ended.content,
        List.drop_nil]
    · exact ended.gains (World.gains_consume fun isOwn => same (Channel.readEnd.inj isOwn)) mine.known
  | drained stage elsewhere isOpen atEnd => exact ended.gains World.gains_shut mine.known
  | reaped stage exited => exact ended.gains World.gains_notice mine.known
  | write | call | move | closed | ended | joined | returns => exact ended

/-- A process that has been waited for stays so. -/
theorem Step.isReaped (step : Step c s s') {pid : Nat} {code : Int} (reaped : s.world.IsReaped pid code) :
    s'.world.IsReaped pid code := by
  have same {w : World} (processes : w.processes = s.world.processes) : w.IsReaped pid code := by
    simpa [World.IsReaped, World.exit?, World.seen?, World.process?, processes] using reaped
  cases step with
  | acts acts =>
    obtain ⟨_, passes, -⟩ := acts.runs
    exact passes.isReaped reaped
  | elsewhere apart => exact same apart.processes
  | pass stdin isOpen held delivered => exact (World.passes_deliver? delivered).isReaped reaped
  | read stage there isOpen count => exact (World.passes_consume s.world count _).isReaped reaped
  | reaped stage ended => exact (World.notice_passes s.world _).isReaped reaped
  | _ => exact same rfl

/-- How far an exchange has come with a call. -/
structure Advanced (c : Exchange.Call) (s : Exchange) : Prop where
  fed : s.stage ≠ .before → ∀ o, s.outflow = some o → o.Fed c
  read : s.stage.PastReading → ∀ i, s.inflow .stdout = some i → s.world.Ended i.pipe
  drained : ∀ i, s.inflow .stderr = some i → i.reader.closed →
    c.settings.chunkSize = some 0 ∨ s.world.Ended i.pipe
  fedAll : s.stage.PastJoining → ∀ o, s.outflow = some o → o.Done c.settings
  drainedAll : s.stage.PastJoining → ∀ i, s.inflow .stderr = some i → i.reader.closed
  reaped : ∀ pid ∈ c.pids, pid ∈ s.stage.pending c.pids ∨ ∃ code, s.world.IsReaped pid code

theorem Step.fed (step : Step c s s') (advanced : s.Advanced c) :
    s'.stage ≠ .before → ∀ o, s'.outflow = some o → o.Fed c := by
  have changed {o o' : Outflow} (stdin : s.outflow = some o) (fed : o'.fed = o.fed)
      (failed : o'.failed = o.failed) (stage : s.stage ≠ .before) :
      ∀ o'', some o' = some o'' → o''.Fed c := by
    rintro _ ⟨⟩
    have before := advanced.fed stage o stdin
    exact ⟨fed.trans before.fed, failed.trans before.failed⟩
  cases step with
  | acts acts => exact advanced.fed
  | elsewhere apart => exact advanced.fed
  | write stage stdin data => exact fun later => absurd stage later
  | pass stdin isOpen held delivered => exact changed stdin rfl rfl
  | call stage there =>
    intro _ o' begun
    obtain ⟨o, stdin, rfl⟩ := Option.map_eq_some_iff.mp begun
    exact ⟨rfl, rfl⟩
  | move stdin isOpen left => exact changed stdin rfl rfl
  | close stage stdin isOpen left held => exact changed stdin rfl rfl
  | lose stage stdin isOpen refused => exact changed stdin rfl rfl
  | closed stage closed => exact fun _ => advanced.fed (by rw [stage]; nofun)
  | read stage there isOpen count => exact advanced.fed
  | ended stage ended => exact fun _ => advanced.fed (by rw [stage]; nofun)
  | drained stage there isOpen ended => exact advanced.fed
  | joined stage fed drained => exact fun _ => advanced.fed (by rw [stage]; nofun)
  | reaped stage ended => exact fun _ => advanced.fed (by rw [stage]; nofun)
  | returns stage => exact fun _ => advanced.fed (by rw [stage]; nofun)

/-- Stdout has been read to its end before, or it is now. -/
theorem Step.read_to_end (step : Step c s s') (sound : s.Sound w₀) (advanced : s.Advanced c) :
    s'.stage.PastReading → ∀ i, s'.inflow .stdout = some i → s'.world.Ended i.pipe := by
  have past : s'.stage.PastReading →
      s.stage.PastReading ∨ ∀ i, s.inflow .stdout = some i → s.world.Ended i.pipe := by
    cases step with
    | call stage there =>
      intro begun
      dsimp only at begun
      split at begun <;> cases begun
    | closed stage closed => exact nofun
    | ended stage ended => exact fun _ => .inr ended
    | joined stage fed drained => exact fun _ => .inl (by rw [stage]; trivial)
    | reaped stage ended => exact fun _ => .inl (by rw [stage]; trivial)
    | returns stage => exact fun _ => .inl (by rw [stage]; trivial)
    | _ => exact .inl
  intro stage i' there
  obtain ⟨i, there, same⟩ := step.sameEnds.inflow_cases there
  rw [← same]
  exact step.stays_ended sound there ((past stage).elim (fun before => advanced.read before i there)
    fun now => now i there)

/-- The drain's end has been closed before, or stderr has come to its end now. -/
theorem Step.drained_or (step : Step c s s') (sound : s.Sound w₀) (advanced : s.Advanced c) :
    ∀ i, s'.inflow .stderr = some i → i.reader.closed →
      c.settings.chunkSize = some 0 ∨ s'.world.Ended i.pipe := by
  intro i' there isClosed
  obtain ⟨i, there, same, atEnd⟩ : ∃ i, s.inflow .stderr = some i ∧ i'.pipe = i.pipe ∧
      (c.settings.chunkSize = some 0 ∨ s.world.Ended i.pipe) := by
    cases step with
    | call stage _ =>
      obtain ⟨i, before, rfl⟩ := Option.map_eq_some_iff.mp there
      exact ⟨i, before, rfl, advanced.drained i before isClosed⟩
    | read stage _ isOpen count =>
      rcases inflow_update there with ⟨-, rfl⟩ | ⟨-, there⟩
      · exact nomatch isOpen.symm.trans isClosed
      · exact ⟨i', there, rfl, advanced.drained i' there isClosed⟩
    | @drained i stage before isOpen ended =>
      have same : Function.update s.inflow .stderr (some i.close) .stderr = some i' := there
      rw [Function.update_self] at same
      cases same
      exact ⟨i, before, rfl, ended⟩
    | _ => exact ⟨i', there, rfl, advanced.drained i' there isClosed⟩
  rw [same]
  exact atEnd.imp_right (step.stays_ended sound there)

/-- When the pumps have been joined, stdin stays closed. -/
theorem Step.fedAll (step : Step c s s') (advanced : s.Advanced c) :
    s'.stage.PastJoining → ∀ o, s'.outflow = some o → o.Done c.settings := by
  have shut {o : Outflow} (stdin : s.outflow = some o) (isOpen : o.writer.closed = false) :
      ¬ s.stage.PastJoining := fun past =>
    nomatch isOpen.symm.trans (advanced.fedAll past o stdin).closed
  cases step with
  | write stage stdin data =>
    intro past
    rw [stage] at past
    cases past
  | pass stdin isOpen held delivered => exact fun past => absurd past (shut stdin isOpen)
  | call stage there =>
    intro past
    dsimp only at past
    split at past <;> cases past
  | move stdin isOpen left => exact fun past => absurd past (shut stdin isOpen)
  | close stage stdin isOpen left held => exact fun past => absurd past (shut stdin isOpen)
  | lose stage stdin isOpen refused => exact fun past => absurd past (shut stdin isOpen)
  | closed stage closed => exact nofun
  | ended stage ended => exact nofun
  | joined stage fed drained => exact fun _ => fed
  | reaped stage ended => exact fun _ => advanced.fedAll (by rw [stage]; trivial)
  | returns stage => exact fun _ => advanced.fedAll (by rw [stage]; trivial)
  | acts | elsewhere | read | drained => exact advanced.fedAll

/-- When the pumps have been joined, the drain's end stays closed. -/
theorem Step.drainedAll (step : Step c s s') (advanced : s.Advanced c) :
    s'.stage.PastJoining → ∀ i, s'.inflow .stderr = some i → i.reader.closed := by
  cases step with
  | call stage there =>
    intro past
    dsimp only at past
    split at past <;> cases past
  | read stage there isOpen count => exact fun past => absurd past stage.not_pastJoining
  | drained stage there isOpen ended =>
    intro past
    rcases stage with stage | stage
    all_goals
      rw [stage] at past
      cases past
  | closed stage closed => exact nofun
  | ended stage ended => exact nofun
  | joined stage fed drained => exact fun _ => drained
  | reaped stage ended => exact fun _ => advanced.drainedAll (by rw [stage]; trivial)
  | returns stage => exact fun _ => advanced.drainedAll (by rw [stage]; trivial)
  | acts | elsewhere | write | pass | move | close | lose => exact advanced.drainedAll

/-- Every process has been waited for, or is still to be. -/
theorem Step.reaped_or (step : Step c s s') (advanced : s.Advanced c) :
    ∀ pid ∈ c.pids, pid ∈ s'.stage.pending c.pids ∨ ∃ code, s'.world.IsReaped pid code := by
  intro pid member
  rcases advanced.reaped pid member with pending | ⟨code, reaped⟩
  · cases step with
    | call stage there =>
      left
      dsimp only
      split <;> exact member
    | closed stage closed => exact .inl member
    | ended stage ended => exact .inl member
    | joined stage fed drained => exact .inl member
    | @reaped pid' rest code stage ended =>
      rw [stage] at pending
      rcases List.mem_cons.mp pending with rfl | later
      · exact .inr ⟨code, by rw [World.exit?_notice, ended], by rw [World.seen?_notice, ended]⟩
      · exact .inl later
    | returns stage =>
      rw [stage] at pending
      cases pending
    | _ => exact .inl pending
  · exact .inr ⟨code, step.isReaped reaped⟩

theorem Step.advanced (step : Step c s s') (sound : s.Sound w₀) (advanced : s.Advanced c) :
    s'.Advanced c where
  fed := step.fed advanced
  read := step.read_to_end sound advanced
  drained := step.drained_or sound advanced
  fedAll := step.fedAll advanced
  drainedAll := step.drainedAll advanced
  reaped := step.reaped_or advanced

/-- Along any run everything stays sound. -/
theorem Run.sound (run : Run c s s') (sound : s.Sound w₀) (advanced : s.Advanced c) :
    s'.Sound w₀ ∧ s'.Advanced c := by
  induction run with
  | refl => exact ⟨sound, advanced⟩
  | tail earlier step ih => exact ⟨step.sound ih.1, step.advanced ih.1 ih.2⟩

/-! ## When the call has returned -/

/-- Nothing is missing when a call has returned: the caller has all that entered its outputs, and what
entered stdin is what was written and then the input, and after that its end. The settings allow for less: a
pump that may read nothing at a time is at its end at once, chunks of a negative size leave out the input, and
what nobody wanted to read may be missing from its end where that is no failure. -/
structure Lossless (c : Exchange.Call) (w₀ : World) (s : Exchange) : Prop where
  output : ∀ i, s.inflow .stdout = some i → i.early ++ i.taken = w₀.content i.pipe ++ s.entered i.pipe
  errors : c.settings.chunkSize ≠ some 0 → ∀ i, s.inflow .stderr = some i →
    i.early ++ i.taken = w₀.content i.pipe ++ s.entered i.pipe
  order : ∀ o, s.outflow = some o → s.entered o.pipe <+: o.written ++ c.encoded?.getD []
  input : ¬ c.SkipsInput → c.settings.ignoresBrokenPipe = false → ∀ o, s.outflow = some o →
    ∃ b, c.encoded? = some b ∧ s.entered o.pipe = o.written ++ b
  skipped : c.SkipsInput → ∀ o, s.outflow = some o → s.entered o.pipe <+: o.written
  endOfInput : ∀ o, s.outflow = some o → s.world.hasWriter o.pipe = false
  reaped : ∀ pid ∈ c.pids, ∃ code, s.world.IsReaped pid code

theorem Run.lossless (run : Run c s s') (sound : s.Sound w₀) (advanced : s.Advanced c)
    (returned : s'.stage = .returned) : s'.Lossless c w₀ := by
  obtain ⟨sound, advanced⟩ := run.sound sound advanced
  have past : s'.stage.PastReading ∧ s'.stage.PastJoining ∧ s'.stage ≠ .before := by
    rw [returned]
    exact ⟨trivial, trivial, nofun⟩
  have complete {t : Stream} {i : Inflow} (there : s'.inflow t = some i)
      (ended : s'.world.Ended i.pipe) : i.early ++ i.taken = w₀.content i.pipe ++ s'.entered i.pipe := by
    rw [entered, (sound.inflow t i there).conserved, ended.content, List.append_nil]
  have passed (o : Outflow) (stdin : s'.outflow = some o) : ∃ lost, (o.broken = false → lost = []) ∧
      s'.entered o.pipe ++ lost = o.written ++ (c.chunks?.getD []).flatten := by
    obtain ⟨lost, kept, ordered⟩ := (sound.outflow o stdin).ordered
    obtain ⟨held, left, -⟩ := (sound.outflow o stdin).closed (advanced.fedAll past.2.1 o stdin).closed
    rw [held, left, (advanced.fed past.2.2 o stdin).fed] at ordered
    exact ⟨lost, kept, by simpa [entered] using ordered⟩
  refine
    { output := fun i there => complete there (advanced.read past.1 i there)
      errors := fun reads i there => complete there
        ((advanced.drained i there (advanced.drainedAll past.2.1 i there)).resolve_left reads)
      order := fun o stdin => ?_
      input := fun feeds strict o stdin => ?_
      skipped := fun skips o stdin => ?_
      endOfInput := fun o stdin => ?_
      reaped := fun pid member => ?_ }
  · obtain ⟨lost, -, ordered⟩ := passed o stdin
    have whole : s'.entered o.pipe <+: o.written ++ (c.chunks?.getD []).flatten := ⟨lost, ordered⟩
    exact whole.trans ((List.prefix_append_right_inj _).mpr c.flatten_prefix)
  · have done := advanced.fedAll past.2.1 o stdin
    have whole : o.broken = false := by
      cases broken : o.broken with
      | false => rfl
      | true => exact nomatch strict.symm.trans (done.broken broken)
    obtain ⟨lost, kept, ordered⟩ := passed o stdin
    have failed := (advanced.fed past.2.2 o stdin).failed
    cases chunked : c.chunks? with
    | none =>
      rw [chunked] at failed
      exact nomatch whole.symm.trans (done.failed failed)
    | some chunks =>
      refine ⟨_, (Exchange.Call.chunks?_cases chunked).resolve_right fun lost => feeds lost.2, ?_⟩
      rw [kept whole, chunked, List.append_nil] at ordered
      exact ordered
  · obtain ⟨lost, -, ordered⟩ := passed o stdin
    rw [c.chunks?_of_skips skips, List.flatten_nil, List.append_nil] at ordered
    exact ⟨lost, ordered⟩
  · exact ((sound.outflow o stdin).closed (advanced.fedAll past.2.1 o stdin).closed).2.2
  · refine (advanced.reaped pid member).resolve_left fun pending => ?_
    rw [returned] at pending
    cases pending

end Exchange

end Pipework
