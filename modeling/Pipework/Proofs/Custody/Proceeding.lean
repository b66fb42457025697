import Pipework.Proofs.Exchange.Reaching
import Pipework.Proofs.System.Accounts

/-!
# While a handle is in use

Between its start and its end a handle opens nothing and starts nothing. `World.Proceeds w w' events` says
what is left to happen to the system: processes run, are watched and are ended, and descriptors are closed.
What closing does is read off the events; everything else is as in `World.Passes`.
-/

namespace Pipework

namespace World

/-- What the starter of a process knows of its end is how it ended. -/
def Honest (w : World) (pid : Nat) : Prop :=
  ∀ code, w.seen? pid = some (some code) → w.exit? pid = some (some code)

/-- What can happen to the system while a handle is in use. -/
structure Proceeds (w w' : World) (events : List Event) : Prop where
  trace : w'.events = w.events ++ events
  opens : openedBy events = []
  starts : startedBy events = []
  descriptors : w'.descriptors = w.descriptors.filter (·.1 ∉ closedBy events)
  /-- Also a descriptor that was given up is still known for what it led to. -/
  pipeOf? : ∀ d, w'.pipeOf? d = w.pipeOf? d
  next : w'.nextDescriptor = w.nextDescriptor
  pipes : w'.pipes.length = w.pipes.length
  openings : w'.openings.length = w.openings.length
  still : w'.processes.map Process.still = w.processes.map Process.still
  exits : ∀ pid, w'.exit? pid = w.exit? pid ∧ codesIn pid events = [] ∨
    w.exit? pid = some none ∧ ∃ code, w'.exit? pid = some (some code) ∧ codesIn pid events = [code]
  reaped : ∀ pid code, w.IsReaped pid code → w'.seen? pid = some (some code)
  honest : ∀ pid, w.Honest pid → w'.Honest pid

variable {w w' w₁ w₂ w₃ : World} {pid d : Nat} {code : Int} {events a b : List Event}
  {entries : List (Nat × Bytes)}

namespace Proceeds

theorem exit_stays (h : w₁.Proceeds w₂ a) (ended : w₁.exit? pid = some (some code)) :
    w₂.exit? pid = some (some code) ∧ codesIn pid a = [] := by
  rcases h.exits pid with ⟨same, none⟩ | ⟨alive, _⟩
  · exact ⟨same.trans ended, none⟩
  · rw [ended] at alive
    cases alive

theorem isReaped (h : w₁.Proceeds w₂ a) (reaped : w₁.IsReaped pid code) : w₂.IsReaped pid code :=
  ⟨(h.exit_stays reaped.1).1, h.reaped pid code reaped⟩

theorem known (h : w₁.Proceeds w₂ a) (known : (w₁.exit? pid).isSome) : (w₂.exit? pid).isSome := by
  rcases h.exits pid with ⟨same, _⟩ | ⟨_, _, ended, _⟩
  · rwa [same]
  · rw [ended]
    rfl

theorem trans (first : w₁.Proceeds w₂ a) (second : w₂.Proceeds w₃ b) : w₁.Proceeds w₃ (a ++ b) where
  trace := by rw [second.trace, first.trace, List.append_assoc]
  opens := by rw [openedBy_append, first.opens, second.opens]; rfl
  starts := by rw [startedBy_append, first.starts, second.starts]; rfl
  descriptors := by
    rw [second.descriptors, first.descriptors, List.filter_filter, closedBy_append]
    refine List.filter_congr fun x _ => ?_
    rw [Bool.eq_iff_iff]
    simp [and_comm]
  pipeOf? d := (second.pipeOf? d).trans (first.pipeOf? d)
  next := second.next.trans first.next
  pipes := second.pipes.trans first.pipes
  openings := second.openings.trans first.openings
  still := second.still.trans first.still
  exits pid := by
    rcases first.exits pid with ⟨same, none⟩ | ⟨alive, code, ended, one⟩
    · rw [codesIn_append, none, List.nil_append, ← same]
      exact second.exits pid
    · have stays := second.exit_stays ended
      exact .inr ⟨alive, code, stays.1, by rw [codesIn_append, one, stays.2]; rfl⟩
  reaped pid code reaped := second.reaped pid code (first.isReaped reaped)
  honest pid := second.honest pid ∘ first.honest pid

end Proceeds

/-! ## What proceeds -/

theorem startedBy_of_control (control : ∀ e ∈ events, e.isControl) : startedBy events = [] := by
  refine List.filterMap_eq_nil_iff.mpr fun e member => ?_
  have isControl := control e member
  cases e <;> first | rfl | cases isControl

theorem Passes.proceeds (passes : w.Passes w' events) (honest : ∀ pid, w.Honest pid → w'.Honest pid) :
    w.Proceeds w' events where
  trace := passes.trace
  opens := openedBy_of_control passes.control
  starts := startedBy_of_control passes.control
  descriptors := by
    rw [closedBy_of_control passes.control, passes.descriptors]
    exact (List.filter_eq_self.mpr (by simp)).symm
  pipeOf? _ := pipeOf?_of_same passes.descriptors passes.retired
  next := passes.nextDescriptor
  pipes := passes.pipes
  openings := passes.openings
  still := passes.still
  exits := passes.exits
  reaped := passes.reaped
  honest := honest

theorem honest_of_same (processes : w'.processes = w.processes) (pid : Nat) (honest : w.Honest pid) :
    w'.Honest pid := by
  intro code
  rw [seen?, exit?, process?, processes]
  exact honest code

/-- A change of one process keeps what is known true, if it does so for that process. -/
theorem honest_changeProcess {f : Process → Process} (pids : ∀ p, (f p).pid = p.pid)
    (keeps : ∀ p code, (p.seen = some code → p.exit = some code) → w.process? pid = some p →
      (f p).seen = some code → (f p).exit = some code)
    (q : Nat) (honest : w.Honest q) : (w.changeProcess pid f).Honest q := by
  intro code seen
  rw [seen?, process?_changeProcess w pid q f pids] at seen
  rw [exit?, process?_changeProcess w pid q f pids]
  cases found : w.process? q with
  | none => simp [found] at seen
  | some p =>
    have before (code : Int) : p.seen = some code → p.exit = some code := by
      have known := honest code
      simpa [seen?, exit?, found] using known
    have number := pid_of_process? found
    by_cases here : p.pid = pid
    · rw [found, Option.map_some, Option.map_some, if_pos here] at seen
      rw [Option.map_some, Option.map_some, if_pos here]
      rw [← number, here] at found
      exact congrArg some (keeps p code (before code) found (Option.some.inj seen))
    · rw [found, Option.map_some, Option.map_some, if_neg here] at seen
      rw [Option.map_some, Option.map_some, if_neg here]
      exact congrArg some (before code (Option.some.inj seen))

theorem honest_endProcess (alive : w.exit? pid = some none) (q : Nat) (honest : w.Honest q) :
    (w.endProcess pid code).Honest q := by
  refine honest_changeProcess (f := fun p => { p with exit := some code }) (fun _ => rfl)
    (fun p seen before found known => ?_) q honest
  have running : p.exit = none := by simpa [exit?, found] using alive
  rw [before known] at running
  cases running

theorem proceeds_of_same (trace : w'.trace = w.trace) (descriptors : w'.descriptors = w.descriptors)
    (retired : w'.retired = w.retired) (next : w'.nextDescriptor = w.nextDescriptor)
    (pipes : w'.pipes.length = w.pipes.length) (openings : w'.openings.length = w.openings.length)
    (processes : w'.processes = w.processes) : w.Proceeds w' [] :=
  (passes_of_same trace descriptors retired next pipes openings processes).proceeds
    (honest_of_same processes)

theorem Proceeds.refl (w : World) : w.Proceeds w [] := (Passes.refl w).proceeds fun _ => id

theorem Acts.proceeds (acts : w.Acts w' entries) : ∃ events, w.Proceeds w' events ∧ ∀ e ∈ events, e.isExit := by
  obtain ⟨events, passes, exits⟩ := acts.runs
  refine ⟨events, passes.proceeds ?_, exits⟩
  cases acts with
  | begins pid => exact honest_changeProcess (fun _ => rfl) fun _ _ known _ => known
  | reads found alive count => exact honest_of_same (same_of_consume w count _).1
  | writes found alive own delivered => exact honest_of_same (same_of_deliver? delivered).1
  | ends found alive code => exact honest_endProcess (exit?_of_alive found alive)
  | rests t => exact fun _ => id

theorem proceeds_notice (w : World) (pid : Nat) : w.Proceeds (w.notice pid) [] :=
  (notice_passes w pid).proceeds (honest_changeProcess (fun _ => rfl) fun _ _ _ _ => id)

theorem proceeds_endProcess (code : Int) (alive : w.exit? pid = some none) :
    w.Proceeds (w.endProcess pid code) [.exited pid code] :=
  (passes_endProcess w pid code alive).proceeds (honest_endProcess alive)

/-- An event that shows no change of descriptors or processes. -/
theorem proceeds_emit (w : World) {e : Event} (opens : e.opens = []) (closes : e.closes = [])
    (starts : e.started? = none) (quiet : ∀ pid, e.codeOf? pid = none) : w.Proceeds (w.emit e) [e] where
  trace := events_emit w e
  opens := by simp [openedBy, opens]
  starts := by simp [startedBy, starts]
  descriptors := by
    rw [List.filter_eq_self.mpr (by simp [closedBy, closes])]
    rfl
  pipeOf? _ := pipeOf?_of_same rfl rfl
  next := rfl
  pipes := rfl
  openings := rfl
  still := rfl
  exits pid := .inl ⟨rfl, by simp [codesIn, quiet]⟩
  reaped _ _ h := h.2
  honest := honest_of_same rfl

theorem proceeds_shut (w : World) (d : Nat) : w.Proceeds (w.shut d) [.closed d] where
  trace := events_emit _ _
  opens := rfl
  starts := rfl
  descriptors := by
    refine List.filter_congr fun x _ => ?_
    rw [Bool.eq_iff_iff]
    simp [closedBy, Event.closes]
  pipeOf? _ := pipeOf?_shut d
  next := rfl
  pipes := rfl
  openings := rfl
  still := rfl
  exits _ := .inl ⟨rfl, rfl⟩
  reaped _ _ h := h.2
  honest := honest_of_same rfl

/-- What is closed after a stretch of execution, and was left open by it, belongs to its account. -/
theorem Account.proceeds {w₀ : World} {more : List Event} (account : w₀.Account w events) (sound : w₀.Sound)
    (proceeds : w.Proceeds w' more) (once : (closedBy more).Nodup)
    (left : ∀ d ∈ closedBy more, d ∈ leftOpenBy events) : w₀.Account w' (events ++ more) where
  trace := by rw [proceeds.trace, account.trace, List.append_assoc]
  opened := by simpa [proceeds.opens] using account.opened
  next := by simpa [proceeds.opens, proceeds.next] using account.next
  pipes := by simpa [proceeds.pipes, pipesIn_of_quiet proceeds.opens] using account.pipes
  openings := by simpa [proceeds.openings, filesIn_of_quiet proceeds.opens] using account.openings
  closed := by
    rw [closedBy_append]
    refine List.nodup_append.mpr ⟨account.closed, once, ?_⟩
    rintro d before _ later rfl
    exact of_decide_eq_true (List.mem_filter.mp (left d later)).2 before
  own d closed := by
    rw [openedBy_append, proceeds.opens, List.append_nil]
    rw [closedBy_append] at closed
    exact (List.mem_append.mp closed).elim (account.own d) fun later => (List.mem_filter.mp (left d later)).1
  descriptors := by
    have caller : ∀ x ∈ w₀.descriptors, decide (x.1 ∉ closedBy more) = true := fun x member =>
      decide_eq_true fun closed => account.fresh sound x.1 (List.mem_filter.mp (left x.1 closed)).1
        (List.mem_map_of_mem member)
    rw [proceeds.descriptors, account.descriptors, List.filter_append, List.filter_eq_self.mpr caller,
      List.filter_filter, allocatedBy_append, allocatedBy_of_quiet proceeds.opens, List.append_nil,
      closedBy_append]
    congr 2
    funext x
    rw [Bool.eq_iff_iff]
    simp [and_comm]

end World

end Pipework
