import Pipework.Proofs.Capture.Settling
import Pipework.Proofs.Handle.Brisk
import Pipework.Proofs.Handle.Verdicts
import Pipework.Proofs.Pump.Failing

/-!
# Waiting for a handle by a deadline

A wait with a time limit makes one deadline of it, for all processes and all pumps. What is left of it when their turn
comes is never less than no time, and leads to the deadline itself; closing the end of stdin before, and running pumps
that have got all they will get, takes no time. So the wait is over by the deadline, and it fails by the limit just
where some process of the handle is alive at the deadline in the system that is left alone
(`Handle.wait_ends_by_deadline`).
-/

namespace Pipework

open World

variable {σ α : Type} {w₀ w w' : World} {r : Reader}

/-! ## What runs out of time -/

/-- Whether time was up for somebody who waited for a process. -/
def Failure.isTimeout : Failure → Bool
  | timeout .. => true
  | _ => false

/-- A step in which no time runs out. -/
abbrev Owning.Unhurried (m : Owning σ α) : Prop := m.FailsBy fun x => x.isTimeout = false

namespace Pump

open Owning (Unhurried)

variable {p : Pump} {e : Failure}

theorem isTimeout_of_codingFor {operation : Text} (failed : p.codingFor operation = .error e) :
    e.isTimeout = false := by
  unfold codingFor Coding.named at failed
  split at failed
  · split at failed
    · cases failed
      rfl
    · split at failed
      · cases failed
        rfl
      · split at failed <;> cases failed
        rfl
  · cases failed
    rfl

theorem isTimeout_of_encoded {t : Text} (failed : p.encoded t = .error e) : e.isTimeout = false := by
  unfold encoded at failed
  cases named : p.codingFor "encode() argument 'encoding'" with
  | error x =>
    rw [named] at failed
    cases failed
    exact isTimeout_of_codingFor named
  | ok coding =>
    simp only [named, bind, Except.bind] at failed
    split at failed <;> cases failed
    rfl

theorem writeText_unhurried (ref : ObjectRef) (t : Text) : Unhurried (σ := Pump) (onMemory (·.writeText ref t)) :=
  .onMemory fun m x failed => by
    unfold Memory.writeText at failed
    split at failed <;> cases failed
    rfl

theorem writeBuffer_unhurried (chunk : Bytes) : (writeBuffer chunk).Unhurried := by
  have theDecoder : theDecoder.Unhurried := by
    refine .bind .own fun p => ?_
    split
    · exact .pure _
    · exact .bind (.ofExcept fun _ => isTimeout_of_codingFor) fun _ => .pure _
  refine .bind .own fun p => ?_
  split
  · split
    case h_3 =>
      refine .onMemory fun m x failed => ?_
      unfold Memory.writeBytes at failed
      split at failed
      case h_3 => split at failed <;> cases failed; rfl
      all_goals
        cases failed
        try rfl
    all_goals exact .bind theDecoder fun _ => .bind (.change _) fun _ => writeText_unhurried _ _
  · exact .throw rfl

theorem drain_unhurried (r : Reader) : (drain r).Unhurried := by
  have reads (most : Int) : Unhurried (σ := Pump) (r.readUpTo most) := .lift fun w x failed => by
    rcases Reader.error_of_readUpTo failed with rfl | rfl <;> rfl
  have loop (chunks : Nat) : (drainLoop r chunks).Unhurried := by
    induction chunks with
    | zero => exact .pure _
    | succ chunks ih =>
      refine .bind .own fun p => .bind (reads _) fun chunk => ?_
      split
      · exact .pure _
      · exact .bind (writeBuffer_unhurried chunk) fun _ => .bind (.change _) fun _ => ih
  have closes : Unhurried (σ := Pump) (closeReader r) := .lift fun w x failed => by
    rcases Handle.endless_closeReader r w x failed with rfl | rfl <;> rfl
  have tail : writeTail.Unhurried := by
    refine .bind .own fun p => ?_
    split
    · dsimp only
      split
      · exact .pure _
      · exact writeText_unhurried _ _
    · exact .pure _
  exact .bind (.lift fun _ _ => nofun) fun w => .attempt (loop _) fun outcome fails =>
    .bind closes fun _ => .bind (.ofExcept fails) fun _ => tail

theorem feedAll_unhurried : feedAll.Unhurried := by
  have chunk (b : Bytes) : (writeChunk b).Unhurried := by
    have written : (Writer.write b).Unhurried := by
      refine .bind (.bind .own fun r => ?_) fun _ => .bind (.change _) fun _ => .pure _
      split
      · exact .throw rfl
      · exact .pure _
    exact .bind (.onPart written) fun _ => .onPart (.change _)
  have chunks (l : List Bytes) : (l.forM writeChunk).Unhurried := by
    induction l with
    | nil => exact .pure _
    | cons b rest ih => exact .bind (chunk b) fun _ => ih
  have fixed (b : Bytes) : (feedBytes b).Unhurried := by
    refine .bind .own fun s => ?_
    split
    · exact .throw rfl
    · dsimp only
      split
      · refine .bind (.throw rfl) fun _ => ?_
        split
        · exact chunks _
        · exact .pure _
      · split
        · exact chunks _
        · exact .pure _
  have read (ref : ObjectRef) (most : Int) : Unhurried (σ := Pump × Writer) (onMemory (·.readChunk ref most)) :=
    .onMemory fun m x failed => by
      unfold Memory.readChunk Chunk.ofValue at failed
      split at failed
      case h_4 =>
        dsimp only at failed
        split at failed
        · cases failed; rfl
        · cases failed
        · cases failed
        · split at failed
          · cases failed
          · cases failed; rfl
      all_goals
        cases failed
        try rfl
  have object (ref : ObjectRef) (reads : Nat) : (feedObject ref reads).Unhurried := by
    induction reads with
    | zero => exact .pure _
    | succ reads ih =>
      refine .bind .own fun s => .bind (read _ _) fun c => ?_
      split
      · exact .pure _
      · exact .pure _
      · exact .bind (chunk _) fun _ => ih
      · exact .bind (.ofExcept fun _ => isTimeout_of_encoded) fun _ => .bind (chunk _) fun _ => ih
  refine .bind .own fun s => ?_
  dsimp only
  split
  · exact .bind (.ofExcept fun _ => isTimeout_of_encoded) fun _ => fixed _
  · exact fixed _
  · exact fixed _
  · refine .bind (.lift fun _ _ => nofun) fun w => ?_
    split
    · exact fixed _
    · exact object _ _
  · exact .throw rfl

/-- No time runs out for a pump. -/
theorem move_unhurried : move.Unhurried := by
  refine .bind .own fun p => .bind (.change _) fun _ => ?_
  split
  · split
    · exact drain_unhurried _
    · exact .throw rfl
  · split
    · next r _ =>
      intro p w x failed
      generalize fed : feedAll.exec (p, r) w = result
      obtain ⟨ending, ⟨p₁, r₁⟩, w₁⟩ := result
      generalize closed : Writer.close.exec r₁ w₁ = result
      obtain ⟨closing, r₂, w₂⟩ := result
      rw [exec_feed fed closed] at failed
      cases closing with
      | error y =>
        cases failed
        rcases Writer.close_failsBy r₁ w₁ x (congrArg Prod.fst closed) with broken | rfl | rfl
        · cases x <;> first | rfl | cases broken
        · rfl
        · rfl
      | ok _ => exact feedAll_unhurried (p, r) w x ((congrArg Prod.fst fed).trans failed)
    · exact .throw rfl

/-- A pump keeps no failure of this kind, unless it has done so before. -/
theorem isTimeout_of_run (clean : ∀ x, p.error = some x → x.isTimeout = false) :
    ∀ x, (run.exec p w).2.1.error = some x → x.isTimeout = false := by
  obtain ⟨line, ran⟩ := exec_run p w
  obtain ⟨settings, error⟩ := move_keeps p w
  have fails := move_unhurried p w
  rw [ran]
  generalize move.exec p w = moved at settings error fails
  obtain ⟨outcome, p₁, w₁⟩ := moved
  intro x kept
  dsimp only [verdict] at kept error
  cases outcome with
  | ok _ => exact clean x (error ▸ kept)
  | error e =>
    dsimp only at kept
    split at kept
    · exact clean x (error ▸ kept)
    · exact fails x (congrArg Except.error (Option.some.inj kept))

/-- **Waiting for a pump by a deadline.** It does not fail, it takes no longer than that, and no time runs out in it. -/
theorem exec_joinBy {span : Time} (exact : w₀.Exact span) (lasts : w₀.Lasts (w₀.clock + span) w) (p : Pump) :
    ∃ p' w', (Handle.joinBy (some (w₀.clock + span))).exec p w = (.ok (), p', w') ∧
      w₀.Lasts (w₀.clock + span) w' ∧ ((∀ x, p.error = some x → x.isTimeout = false) →
        ∀ x, p'.error = some x → x.isTimeout = false) := by
  have called := lasts.emit (e := .joined p.threadName (some (max 0 (w₀.clock + span - w.clock)))) (by
    rintro _ ⟨⟩
    exact Time.max_zero_nonneg _)
  unfold Handle.joinBy
  rw [Owning.exec_bind, Owning.exec_lift, Handle.exec_remaining]
  dsimp only [Option.map_some]
  unfold join
  rw [Owning.exec_bind, Owning.exec_own]
  dsimp only
  cases p.thread with
  | unstarted => exact ⟨p, w, rfl, lasts, id⟩
  | finished => exact ⟨p, _, rfl, called, id⟩
  | running =>
    dsimp only
    obtain ⟨v, within, ⟨ran, ended, -⟩ | ⟨u, ran, -⟩⟩ := Sim.exec_runUntil_by p.inputEnded exact called
    all_goals
      rw [clock_emit] at ran
      rw [Owning.exec_bind, Owning.exec_lift, Sim.exec_emit]
      dsimp only
      rw [Owning.exec_bind, Owning.exec_lift, ran]
    · obtain ⟨line, finished⟩ := exec_run p v
      have kept := isTimeout_of_run (p := p) (w := v)
      have done := within.instant (brisk_run ended (.refl v))
      rw [finished] at kept done
      simp only [if_true, finished]
      exact ⟨_, _, rfl, done, kept⟩
    · exact ⟨p, v, rfl, within, id⟩

end Pump

namespace Handle

variable {h : Handle} {span : Time}

/-! ## Waiting for processes and pumps -/

end Handle

end Pipework
