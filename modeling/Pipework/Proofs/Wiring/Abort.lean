import Pipework.Proofs.Wiring.Progress
import Pipework.Proofs.Wiring.Reaping
import Pipework.Proofs.Wiring.Release

/-!
# Giving a wiring up

After a failed start nothing is left: `NothingLeft` says so about the system and about the events of
the whole start. It is derived for any point at which a walk may stop, from the ledger and the
roster of the walk.
-/

namespace Pipework

/-- What is true after a start that came to nothing. -/
structure World.NothingLeft (w₀ w : World) (events : List Event) : Prop where
  trace : w.events = w₀.events ++ events
  /-- The caller's descriptors are open as before, and no other is. -/
  descriptors : w.descriptors = w₀.descriptors
  /-- What was opened was closed exactly once. -/
  closed : ∀ d ∈ openedBy events, (closedBy events).count d = 1
  /-- Nothing else was closed. -/
  own : ∀ d ∈ closedBy events, d ∈ openedBy events
  fresh : ∀ d ∈ openedBy events, d ∉ w₀.descriptors.map (·.1)
  /-- No pump was started. -/
  threads : ∀ name, .threadStarted name ∉ events
  /-- Every process that was started has ended and was waited for. -/
  reaped : ∀ pid ∈ startedBy events, ReapedIn w pid events
  /-- A process was killed only while it was alive. -/
  kills : KillsEnd events
  sound : w.Sound

namespace Wiring

open World

variable {w₀ w : World} {σ : Wiring} {events : List Event}

/-- The state of a wiring after the side of the commands is closed: what is still open is kept for
the caller and for pumps that have not started, and every process that was started is alive. -/
structure Kept (w₀ w : World) (σ : Wiring) (events : List Event) : Prop where
  account : w₀.Account w events
  sound : w.Sound
  alive : ∀ e ∈ σ.processes, w.exit? e.2 = some none
  endpoints : ∀ e ∈ σ.endpoints, ∃ s d, e.2 = newEndpoint s d
  pumps : ∀ p ∈ σ.pumps, p.IsFresh
  kept : (σ.endpoints.map (·.2.descriptor) ++ σ.pumps.flatMap Pump.descriptors).Perm
      (leftOpenBy events)

/-- Giving up what the caller and the pumps would have kept, and the processes. -/
theorem Kept.exec_abort (kept : Kept w₀ w σ events) (sound₀ : w₀.Sound) :
    ∃ (w' : World) (reaping : List Event) (closing : List Nat),
      abort.exec σ w = (.ok (), { σ with endpoints := [] }, w') ∧
      w₀.Account w' (events ++ reaping ++ closing.map .closed) ∧
      leftOpenBy (events ++ reaping ++ closing.map .closed) = [] ∧ w'.Sound ∧
      (∀ e ∈ reaping, e.isControl) ∧ KillsEnd reaping ∧
        ∀ e ∈ σ.processes, ReapedIn w' e.2 reaping := by
  obtain ⟨account, sound, alive, endpoints, pumps, held⟩ := kept
  obtain ⟨w₁, w₂, reaping, killed, awaited, passes, kills, reaped⟩ := exec_reap σ σ.processes alive
  have quiet := openedBy_of_control passes.control
  have account₂ := account.passes passes
  have left : leftOpenBy (events ++ reaping) = leftOpenBy events := by
    rw [leftOpenBy_append _ quiet, closedBy_of_control passes.control]
    exact List.filter_eq_self.mpr (by simp)
  have distinct := held.nodup_iff.mpr (account.nodup_opened.filter _)
  obtain ⟨distinctEnds, distinctPumps, apart⟩ := List.nodup_append.mp distinct
  have leftEnds : ∀ d ∈ σ.endpoints.map (·.2.descriptor), d ∈ leftOpenBy (events ++ reaping) :=
    fun d member => by
    rw [left]
    exact held.mem_iff.mp (List.mem_append_left _ member)
  have leftPumps : ∀ d ∈ σ.pumps.flatMap Pump.descriptors,
      d ∈ leftOpenBy (events ++ reaping ++ (σ.endpoints.map (·.2.descriptor)).map .closed) :=
        fun d member => by
    rw [leftOpenBy_append _ (openedBy_map_closed _), closedBy_map_closed, List.mem_filter, left]
    have other : d ∉ σ.endpoints.map (·.2.descriptor) := fun early => apart d early d member rfl
    exact ⟨held.mem_iff.mp (List.mem_append_right _ member), by simpa using other⟩
  have closedEnds := exec_closeEndpoints account₂ sound₀ endpoints distinctEnds leftEnds
  have account₃ := account₂.shutAll sound₀ distinctEnds leftEnds
  have closedPumps := exec_closePumps account₃ sound₀ pumps distinctPumps leftPumps
  have account₄ := account₃.shutAll sound₀ distinctPumps leftPumps
  refine ⟨(w₂.shutAll (σ.endpoints.map (·.2.descriptor))).shutAll
    (σ.pumps.flatMap Pump.descriptors), reaping, σ.endpoints.map (·.2.descriptor) ++
    σ.pumps.flatMap Pump.descriptors, ?_, ?_, ?_, ?_, passes.control, kills, ?_⟩
  · simp only [abort, Owning.exec_bind, Owning.exec_own, killed, Owning.exec_lift, awaited,
      closedEnds, Owning.exec_change, closedPumps]
  · rw [List.map_append, ← List.append_assoc]
    exact account₄
  · rw [leftOpenBy_append _ (openedBy_map_closed _), closedBy_map_closed, left]
    refine List.filter_eq_nil_iff.mpr fun d member => ?_
    exact fun absent => of_decide_eq_true absent (held.mem_iff.mpr member)
  · exact (((sound.passes passes).shutAll _).shutAll _)
  · intro e member
    have shut :
        (((w₂.shutAll (σ.endpoints.map (·.2.descriptor))).shutAll
          (σ.pumps.flatMap Pump.descriptors))).processes
        = w₂.processes := by rw [processes_shutAll, processes_shutAll]
    have all := (reaped e member).extend (codesIn_nil e.2) shut
    rwa [List.append_nil] at all

section Parts

variable {value : Claim → Descriptor} {settings : StartSettings} {done : List Chore}
    {starts : List Start}

private theorem find?_of_distinct {processes : List Process}
    (distinct : (processes.map (·.pid)).Nodup) {p : Process} (member : p ∈ processes) :
    processes.find? (·.pid == p.pid) = some p := by
  induction processes with
  | nil => cases member
  | cons q rest ih =>
    rw [List.map_cons, List.nodup_cons] at distinct
    rcases List.mem_cons.mp member with rfl | later
    · simp
    · have other : q.pid ≠ p.pid := fun same => distinct.1 (same ▸ List.mem_map_of_mem later)
      rw [List.find?_cons_of_neg (by simpa using other)]
      exact ih distinct.2 later

/-- Every process that was started can be found under its number. -/
theorem Roster.process? (roster : Roster value settings w₀ w done σ events starts)
    (sound₀ : w₀.Sound) {s : Start} (member : s ∈ starts) {p : Process}
    (started : s.result = .ok p) : w.process? p.pid = some p := by
  have isNew : p ∈ starts.filterMap Start.process? :=
    List.mem_filterMap.mpr ⟨s, member, by rw [Start.process?, started]⟩
  have distinct : ((starts.filterMap Start.process?).map (·.pid)).Nodup := by
    rw [roster.pids]
    exact List.nodup_range'
  have range : 1001 + w₀.processes.length ≤ p.pid := by
    have pid : p.pid ∈ (starts.filterMap Start.process?).map (·.pid) := List.mem_map_of_mem isNew
    rw [roster.pids, List.mem_range'_1] at pid
    exact pid.1
  have notOld : w₀.processes.find? (·.pid == p.pid) = none := by
    refine List.find?_eq_none.mpr fun q old => ?_
    have small := sound₀.pids q old
    have other : q.pid ≠ p.pid := by omega
    simpa using other
  rw [World.process?, roster.processes, List.find?_append, notOld, Option.none_or]
  exact find?_of_distinct distinct isNew

theorem Roster.alive (roster : Roster value settings w₀ w done σ events starts) (sound₀ : w₀.Sound)
    (e : Command × Nat) (member : e ∈ σ.processes) : w.exit? e.2 = some none := by
  rw [roster.entries] at member
  obtain ⟨s, isStart, entry⟩ := List.mem_filterMap.mp member
  obtain ⟨p, isProcess, rfl⟩ := Option.map_eq_some_iff.mp entry
  have started : s.result = .ok p := by
    unfold Start.process? at isProcess
    split at isProcess <;> cases isProcess
    assumption
  rw [exit?, roster.process? sound₀ isStart started, Option.map_some,
    (roster.streams s isStart p started).exit]

theorem Served.newEndpoints (served : Served value settings done σ events) (e : Stream × Endpoint)
    (member : e ∈ σ.endpoints) : ∃ s d, e.2 = newEndpoint s d := by
  rw [served.endpoints] at member
  obtain ⟨redirect, _, rfl⟩ := List.mem_map.mp member
  exact ⟨_, _, rfl⟩

theorem Served.freshPumps (served : Served value settings done σ events) (p : Pump)
    (member : p ∈ σ.pumps) :
    p.IsFresh := by
  rw [served.pumps] at member
  obtain ⟨i, bound, rfl⟩ := List.mem_mapIdx.mp member
  exact ⟨rfl, _, rfl⟩

/-- Closing the side of the commands, wherever the walk has stopped. -/
theorem Progress.exec_closeChildSide (progress : Progress value settings w₀ w done σ events starts)
    (sound₀ : w₀.Sound) :
    closeChildSide.exec σ w
        = (.ok (), { σ with childDescriptors := [], files := [] },
          w.shutAll (σ.childDescriptors ++ σ.files)) ∧
      Kept w₀ (w.shutAll (σ.childDescriptors ++ σ.files))
        { σ with childDescriptors := [], files := [] }
        (events ++ (σ.childDescriptors ++ σ.files).map .closed) := by
  obtain ⟨ledger, roster, served, _⟩ := progress
  have unclosed := closedBy_of_wiring ledger.wiring
  have left : leftOpenBy events = openedBy events := by
    rw [leftOpenBy, unclosed]
    exact List.filter_eq_self.mpr (by simp)
  have distinct := ledger.held.nodup_iff.mpr ledger.account.nodup_opened
  rw [held, List.append_assoc] at distinct
  obtain ⟨distinctChild, _, apart⟩ := List.nodup_append.mp distinct
  have leftChild : ∀ d ∈ σ.childDescriptors ++ σ.files, d ∈ leftOpenBy events := fun d member => by
    rw [left]
    refine ledger.held.mem_iff.mp ?_
    rw [held, List.append_assoc]
    exact List.mem_append_left _ member
  refine ⟨Wiring.exec_closeChildSide ledger.account sound₀ distinctChild leftChild, ?_⟩
  have account := ledger.account.shutAll sound₀ distinctChild leftChild
  refine ⟨account, ledger.sound.shutAll _, fun e member => ?_, served.newEndpoints,
    served.freshPumps, ?_⟩
  · have alive := roster.alive sound₀ e member
    simpa [exit?, World.process?] using alive
  · rw [leftOpenBy_append _ (openedBy_map_closed _), closedBy_map_closed, left]
    have split := ledger.held.filter (· ∉ σ.childDescriptors ++ σ.files)
    rw [held, List.append_assoc, List.filter_append] at split
    have none : (σ.childDescriptors ++ σ.files).filter (· ∉ σ.childDescriptors ++ σ.files) = [] :=
      List.filter_eq_nil_iff.mpr fun d member absent => of_decide_eq_true absent member
    have all : (σ.endpoints.map (·.2.descriptor) ++ σ.pumps.flatMap Pump.descriptors).filter
        (· ∉ σ.childDescriptors ++ σ.files) = σ.endpoints.map (·.2.descriptor) ++
          σ.pumps.flatMap Pump.descriptors :=
      List.filter_eq_self.mpr fun d member => decide_eq_true fun child => apart d child d member rfl
    rw [none, all, List.nil_append] at split
    exact split

/-- Wherever a walk has stopped: after the side of the commands is closed, giving up the rest leaves
nothing. -/
theorem Progress.exec_abort (progress : Progress value settings w₀ w done σ events starts)
    (sound₀ : w₀.Sound) :
    ∃ w' more, abort.exec { σ with childDescriptors := [], files := [] }
      (w.shutAll (σ.childDescriptors ++ σ.files))
        = (.ok (), { σ with childDescriptors := [], files := [], endpoints := [] }, w') ∧
      w₀.NothingLeft w' (events ++ more) ∧ more.filter Event.isStart = [] ∧ openedBy more = [] := by
  obtain ⟨-, kept⟩ := progress.exec_closeChildSide sound₀
  obtain ⟨w', reaping, closing, aborted, account, left, sound, control, kills, reaped⟩ :=
    kept.exec_abort sound₀
  obtain ⟨ledger, roster, -, -⟩ := progress
  have noStart : ((σ.childDescriptors ++ σ.files).map Event.closed ++ reaping ++
      closing.map Event.closed).filter
      Event.isStart = [] := by
    rw [List.filter_append, List.filter_append, filter_isStart_map_closed,
      filter_isStart_map_closed, filter_isStart_of_control control]
    rfl
  have opensNone : openedBy ((σ.childDescriptors ++ σ.files).map Event.closed ++ reaping ++
      closing.map Event.closed) = [] := by
    rw [openedBy_append, openedBy_append, openedBy_map_closed, openedBy_map_closed,
      openedBy_of_control control]
    rfl
  refine ⟨w', (σ.childDescriptors ++ σ.files).map Event.closed ++ reaping ++ closing.map .closed,
    aborted, ?_, noStart, opensNone⟩
  have joined : events ++ ((σ.childDescriptors ++ σ.files).map Event.closed ++ reaping ++
      closing.map .closed)
      = events ++ (σ.childDescriptors ++ σ.files).map .closed ++ reaping ++
        closing.map .closed := by
    simp only [List.append_assoc]
  rw [joined]
  refine
    { trace := account.trace
      descriptors := account.restored left
      closed := fun d opened => account.closed_once opened (left ▸ List.not_mem_nil)
      own := account.own
      fresh := account.fresh sound₀
      threads := ?_
      reaped := ?_
      kills := ?_
      sound := sound }
  · intro name member
    simp only [List.mem_append, List.mem_map] at member
    rcases member with ((inWalk | ⟨d, _, same⟩) | inReaping) | ⟨d, _, same⟩
    · cases ledger.wiring _ inWalk
    · cases same
    · cases control _ inReaping
    · cases same
  · intro pid started
    have entry : pid ∈ σ.processes.map (·.2) := by
      rw [← roster.started]
      have later : startedBy ((σ.childDescriptors ++ σ.files).map Event.closed ++ reaping ++
          closing.map .closed) = [] := by
        refine List.filterMap_eq_nil_iff.mpr fun e member => ?_
        have other := List.filter_eq_nil_iff.mp noStart e member
        cases e <;> first | rfl | simp [Event.isStart] at other
      rw [← joined, startedBy_append, later, List.append_nil] at started
      exact started
    obtain ⟨e, member, rfl⟩ := List.mem_map.mp entry
    have quiet : codesIn e.2 (events ++ (σ.childDescriptors ++ σ.files).map .closed) = [] := by
      rw [codesIn_append, codesIn_of_wiring ledger.wiring, codesIn_map_closed]
      rfl
    exact ((reaped e member).prepend quiet).extend (codesIn_map_closed _ _) rfl
  · have noKill {some : List Event} (none : ∀ pid, .killed pid ∉ some) := KillsEnd.of_none none
    have closes (ds : List Nat) : KillsEnd (ds.map .closed) := noKill fun pid member => by
      obtain ⟨d, _, same⟩ := List.mem_map.mp member
      cases same
    have inWalk : KillsEnd events := noKill fun pid member => by cases ledger.wiring _ member
    exact ((inWalk.append (closes _)).append kills).append (closes _)

end Parts

end Wiring

end Pipework
