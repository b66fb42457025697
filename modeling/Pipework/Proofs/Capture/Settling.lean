import Pipework.Proofs.Capture.Ending

/-!
# What a helper does with its handle in the end

After a failure a helper discards its handle: what still lives is killed before anything is waited for, so
that this always comes to its end (`Ready.exec_discard`). Else it finishes the handle, which takes as long as
the processes do, and comes to the first failure that there is to report (`Ready.exec_finish`).
-/

namespace Pipework

namespace Handle

open Custody World

variable {h : Handle} {w : World}

/-- Ending the processes of a handle does not touch the handle. -/
private theorem Ready.exec_kill (ready : h.Ready w) : ∃ w₁ killing,
    Handle.kill.exec h w = (.ok (), h, w₁) ∧ w.KillsAll w₁ h.pids killing ∧ h.Along w h w₁ := by
  obtain ⟨w₁, killing, ran, kills⟩ := exec_eachAlive_kill ready.known
  have killed : Handle.kill.exec h w = (.ok (), h, w₁) := by
    simp only [Handle.kill, Owning.exec_bind, Owning.exec_own, Owning.exec_lift, ran]
  have along := Tended.kill h w ready.along
  rw [killed] at along
  exact ⟨w₁, killing, killed, kills, along⟩

/-- Discarding a handle always comes to its end, and nothing is left of the handle then. Whatever still lived
was killed before anything was waited for. -/
theorem Ready.exec_discard (ready : h.Ready w) : ∃ h' w₁ w' killing rest,
    Engine.discard.exec h w = (.ok (), h', w') ∧ h.Along w h' w' ∧ h'.Over w' ∧
      w.KillsAll w₁ h.pids killing ∧ w'.events = w₁.events ++ rest := by
  obtain ⟨w₁, killing, killed, kills, along₁⟩ := ready.exec_kill
  have ready₁ := ready.stays along₁
  obtain ⟨undelivered, w₂, -, closing, tended, -⟩ := ready₁.along.exec_close ready₁.sound true
  have along₂ : h.Along w₁ h.bare w₂ := tended
  obtain ⟨outcome, h', w', awaited, along₃, ended⟩ := (ready₁.stays along₂).exec_awaitEnd h.endOf_bare none
  have whole := Tended.trans along₂ along₃
  obtain ⟨rest, proceeds⟩ := ready₁.proceeds whole
  rcases ended with ⟨-, hung⟩ | ⟨rfl, isOver⟩
  · refine absurd ?_ hung.not_allEnded
    rw [along₂.pids]
    exact kills.ended.proceeds proceeds
  · refine ⟨h', w₁, w', killing, rest, ?_, Tended.trans along₁ whole, isOver, kills, proceeds.trace⟩
    simp only [Engine.discard, Owning.exec_bind, killed, closing, if_true, awaited, raised, Option.elim_none,
      Owning.exec_pure]

/-- What finishing a handle comes to, when nothing of the handle is left. -/
def verdict (undelivered : Option Failure) (h : Handle) (w : World) : Except Failure Unit :=
  match undelivered.or (firstError? h.pumps) with
  | some e => .error e
  | none => if (h.statusesIn w).any (·.failed) then .error (.processes (h.statusesIn w)) else .ok ()

/-- Finishing succeeds just where everything was delivered, no pump kept an error and no command failed. -/
theorem verdict_ok_iff (undelivered : Option Failure) (h : Handle) (w : World) :
    verdict undelivered h w = .ok () ↔
      undelivered = none ∧ (∀ p ∈ h.pumps, p.error = none) ∧ ∀ s ∈ h.statusesIn w, s.failed = false := by
  unfold verdict
  cases undelivered with
  | some e => simp
  | none =>
    rw [Option.none_or]
    cases first : firstError? h.pumps with
    | some e =>
      obtain ⟨p, member, kept⟩ := List.exists_of_findSome?_eq_some first
      simp only [reduceCtorEq, true_and, false_iff, not_and]
      intro none
      rw [none p member] at kept
      cases kept
    | none =>
      have quiet : ∀ p ∈ h.pumps, p.error = none := List.findSome?_eq_none_iff.mp first
      simpa using fun _ => quiet

theorem closeEndpoint_of_none (gone : h.stdin = none) (w : World) :
    (Handle.closeEndpoint .stdin).exec h w = (.ok none, h, w) := by
  obtain ⟨graph, processes, pumps, stdin, stdout, stderr, logger, settings, output⟩ := h
  cases gone
  rfl

/-- Checking is waiting and then looking for a command that failed. -/
private theorem exec_check_of_wait {limit : Limit} {outcome : Except Failure (List ProcessStatus)}
    {h' : Handle} {w' : World} (awaited : (Handle.wait limit).exec h w = (outcome, h', w')) :
    ∃ log, (Handle.check limit).exec h w = (outcome.bind fun statuses =>
      if statuses.any (·.failed) then .error (.processes statuses) else .ok statuses, h', { w' with log }) := by
  rw [Handle.check, Owning.exec_bind, awaited]
  cases outcome with
  | error e => exact ⟨w'.log, rfl⟩
  | ok statuses =>
    by_cases failed : statuses.any (·.failed)
    · refine ⟨⟨h'.logger, .info, (Failure.processes statuses).message⟩ :: w'.log, ?_⟩
      simp only [failed, if_true, Handle.say, Owning.exec_bind, Owning.exec_own, Owning.exec_lift,
        Sim.exec_note, Owning.exec_throw, Except.bind]
    · refine ⟨w'.log, ?_⟩
      simp only [failed, Except.bind]
      rfl

/-- Of a handle of which nothing is left, waiting again only looks for what is to report. -/
private theorem Ready.exec_check (ready : h.Ready w) (isOver : h.Over w) : ∃ outcome h' w',
    (Handle.check endless).exec h w = (outcome, h', w') ∧ h.Along w h' w' ∧ h'.Over w' ∧
      outcome.map (fun _ => ()) = verdict none h' w' := by
  have along := Tended.check ready.sound endless h w ready.along
  have gone : h.stdin = none := by simpa [endOf] using isOver.ends .stdin
  obtain ⟨w₁, lifted, ⟨waited, reaped⟩ | ⟨-, hung⟩⟩ := ready.exec_waitAll
  case inr =>
    obtain ⟨_, proceeds⟩ := ready.proceeds lifted
    exact absurd (isOver.reaped.ended.proceeds proceeds) hung.not_allEnded
  obtain ⟨pumps, w₂, joined, finished, along₂⟩ := (ready.stays lifted).exec_eachPump reaped.ended
  obtain ⟨_, proceeds⟩ := (ready.stays lifted).proceeds along₂
  have isOver₂ : Handle.Over { h with pumps } w₂ := ⟨isOver.ends, reaped.proceeds proceeds, finished⟩
  have awaited : (Handle.wait endless).exec h w
      = (raised (firstError? pumps) (Handle.statusesIn { h with pumps } w₂), { h with pumps }, w₂) := by
    simp only [Handle.wait, Owning.exec_bind, closeEndpoint_of_none gone, Owning.exec_lift, Owning.exec_own,
      deadlineOf, endless, Sim.exec_bind, Sim.exec_world, Sim.exec_ofExcept, Sim.exec_pure, Option.map_none,
      waited, joinBy_none, joined, exec_raise?, raised, Option.elim_none]
    cases firstError? pumps <;> rfl
  obtain ⟨log, checked⟩ := exec_check_of_wait awaited
  rw [checked] at along
  refine ⟨_, _, _, checked, along, ⟨isOver₂.ends, isOver₂.reaped, finished⟩, ?_⟩
  have same : Handle.statusesIn { h with pumps } { w₂ with log } = Handle.statusesIn { h with pumps } w₂ := rfl
  rw [verdict, same, Option.none_or]
  dsimp only
  cases firstError? pumps with
  | some e => rfl
  | none =>
    simp only [raised, Option.elim_none, Except.bind]
    split <;> rfl

/-- Finishing a handle takes for ever when a process does, and else nothing of the handle is left. -/
theorem Ready.exec_finish (ready : h.Ready w) : ∃ undelivered outcome h' w',
    ((Handle.closeEndpoint .stdin).exec h w).1 = .ok undelivered ∧
    Engine.finish.exec h w = (outcome, h', w') ∧ h.Along w h' w' ∧
      (outcome = .error .deadlock ∧ w'.Hung h.pids ∨ h'.Over w' ∧ outcome = verdict undelivered h' w') := by
  obtain ⟨undelivered, w₁, stdin, closing, tended, -⟩ := ready.along.exec_close ready.sound false
  have along₁ : h.Along w h.bare w₁ := tended
  obtain ⟨outcome, h₂, w₂, awaited, along₂, ended⟩ := (ready.stays along₁).exec_awaitEnd h.endOf_bare undelivered
  have whole := Tended.trans along₁ along₂
  rw [if_neg (by simp), awaited] at closing
  refine ⟨undelivered, ?_⟩
  rcases ended with ⟨rfl, hung⟩ | ⟨rfl, isOver⟩
  · refine ⟨_, h₂, w₂, stdin, ?_, whole, .inl ⟨rfl, along₁.pids ▸ hung⟩⟩
    simp only [Engine.finish, Owning.exec_bind, closing]
  · cases undelivered with
    | some e =>
      refine ⟨_, h₂, w₂, stdin, ?_, whole, .inr ⟨isOver, rfl⟩⟩
      simp only [Engine.finish, Owning.exec_bind, closing, raised, Option.elim_some]
      rfl
    | none =>
      obtain ⟨outcome, h', w', checked, along₃, isOver', result⟩ := (ready.stays whole).exec_check isOver
      refine ⟨outcome.map fun _ => (), h', w', stdin, ?_, Tended.trans whole along₃, .inr ⟨isOver', result⟩⟩
      simp only [Engine.finish, Owning.exec_bind, closing, raised, Option.elim_none, checked]
      cases outcome <;> rfl

end Handle

end Pipework
