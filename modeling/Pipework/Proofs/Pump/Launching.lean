import Pipework.Handle
import Pipework.Proofs.Pump.Starting
import Pipework.Proofs.Wiring.Release
import Pipework.Proofs.Wiring.Roster

/-!
# Starting all pumps

When the pumps of a graph are started, each of them is started exactly once, in order, and none
fails. Those that feed close their own ends; nothing else is opened or closed, and no command is
started.
-/

namespace Pipework

/-- The thread that an event starts. -/
def Event.thread? : Event → Option Text
  | threadStarted name => some name
  | _ => none

theorem Event.thread?_of_isControl {e : Event} (control : e.isControl) : e.thread? = none := by
  cases e <;> first | rfl | cases control

theorem Event.isStart_of_isControl {e : Event} (control : e.isControl) : e.isStart = false := by
  cases e <;> first | rfl | cases control

/-- What starting some pumps does: the pumps before and after, and the events. -/
structure Pump.Launches (pumps pumps' : List Pump) (events : List Event) : Prop where
  length : pumps'.length = pumps.length
  launched : ∀ q ∈ pumps.zip pumps', q.1.Launched q.2
  opens : openedBy events = []
  closes : closedBy events = pumps.flatMap Pump.closesAtOnce
  threads : events.filterMap Event.thread? = pumps.map Pump.threadName
  starts : events.filter Event.isStart = []

namespace Pump

open World

variable {w₀ w : World} {events : List Event}

theorem closesAtOnce_subset (p : Pump) {d : Nat} (member : d ∈ p.closesAtOnce) :
    d ∈ p.descriptors := by
  unfold closesAtOnce at member
  split at member
  · exact member
  · cases member

theorem nodup_closesAtOnce {p : Pump} (fresh : p.IsFresh) : p.closesAtOnce.Nodup := by
  obtain ⟨-, d, isDescriptor⟩ := fresh
  unfold closesAtOnce
  split
  · simp [Pump.descriptors, isDescriptor]
  · exact List.nodup_nil

/-- The events of starting one pump. -/
private theorem launches_one {p p' : Pump} (launched : p.Launched p') {exits : List Event}
    (ends : ∀ e ∈ exits, e.isExit) :
    Launches [p] [p'] ([.threadStarted p.threadName] ++ exits ++ p.closesAtOnce.map .closed) := by
  have control : ∀ e ∈ exits, e.isControl := fun e member => by
    have isExit := ends e member
    cases e <;> first | rfl | cases isExit
  have threads : exits.filterMap Event.thread? = [] :=
    List.filterMap_eq_nil_iff.mpr fun e member => Event.thread?_of_isControl (control e member)
  have starts : exits.filter Event.isStart = [] :=
    List.filter_eq_nil_iff.mpr fun e member => by simp [Event.isStart_of_isControl
      (control e member)]
  have opens : openedBy [Event.threadStarted p.threadName] = [] := rfl
  have closes : closedBy [Event.threadStarted p.threadName] = [] := rfl
  refine ⟨rfl, ?_, ?_, ?_, ?_, ?_⟩
  · intro q member
    rw [List.mem_singleton.mp member]
    exact launched
  · rw [openedBy_append, openedBy_append, opens, openedBy_of_control control, openedBy_map_closed]
    rfl
  · rw [closedBy_append, closedBy_append, closes, closedBy_of_control control, closedBy_map_closed]
    simp
  · rw [List.filterMap_append, List.filterMap_append, threads, List.filterMap_map]
    simp [Event.thread?, Function.comp_def]
  · rw [List.filter_append, List.filter_append, starts, List.filter_map]
    simp [Event.isStart, Function.comp_def]

theorem Launches.append {ps qs ps' qs' : List Pump} {a b : List Event} (first : Launches ps ps' a)
    (second : Launches qs qs' b) : Launches (ps ++ qs) (ps' ++ qs') (a ++ b) where
  length := by rw [List.length_append, List.length_append, first.length, second.length]
  launched q member := by
    rw [List.zip_append first.length.symm, List.mem_append] at member
    exact member.elim (first.launched q) (second.launched q)
  opens := by rw [openedBy_append, first.opens, second.opens]; rfl
  closes := by rw [closedBy_append, first.closes, second.closes, List.flatMap_append]
  threads := by rw [List.filterMap_append, first.threads, second.threads, List.map_append]
  starts := by rw [List.filter_append, first.starts, second.starts]; rfl

/-- What a pump holds after its start is what it did not close. -/
private theorem Launched.descriptors {p p' : Pump} (launched : Launched p p') :
    p'.descriptors = p.descriptors.filter (· ∉ p.closesAtOnce) := by
  cases direction : p.direction with
  | drain =>
    have closing : p.closesAtOnce = [] := by simp [closesAtOnce, direction]
    rw [launched.drain direction, closing, List.filter_eq_self.mpr (by simp)]
    rfl
  | feed =>
    have closing : p.closesAtOnce = p.descriptors := by simp [closesAtOnce, direction]
    have none : p.descriptors.filter (· ∉ p.descriptors) = [] :=
      List.filter_eq_nil_iff.mpr fun d member absent => of_decide_eq_true absent member
    rw [closing, none, Pump.descriptors, (launched.feed direction).2]

private theorem descriptors_of_launched {ps ps' : List Pump} (length : ps'.length = ps.length)
    (launched : ∀ q ∈ ps.zip ps', q.1.Launched q.2)
    (distinct : (ps.flatMap Pump.descriptors).Nodup) :
    ps'.flatMap Pump.descriptors
      = (ps.flatMap Pump.descriptors).filter (· ∉ ps.flatMap Pump.closesAtOnce) := by
  induction ps generalizing ps' with
  | nil => rw [List.length_eq_zero_iff.mp length]; rfl
  | cons p rest ih =>
    cases ps' with
    | nil => cases length
    | cons p' rest' =>
      rw [List.flatMap_cons] at distinct
      obtain ⟨-, distinctRest, apart⟩ := List.nodup_append.mp distinct
      have others := ih (Nat.succ.inj length) (fun q member =>
          launched q (List.mem_cons_of_mem _ member)) distinctRest
      have closesRest : ∀ d ∈ rest.flatMap Pump.closesAtOnce, d ∈ rest.flatMap Pump.descriptors :=
        fun d member => by
        obtain ⟨q, known, closes⟩ := List.mem_flatMap.mp member
        exact List.mem_flatMap.mpr ⟨q, known, q.closesAtOnce_subset closes⟩
      rw [List.flatMap_cons, List.flatMap_cons, List.flatMap_cons, List.filter_append, others,
        (launched (p, p') List.mem_cons_self).descriptors]
      congr 1
      · refine List.filter_congr fun d member => decide_eq_decide.mpr ?_
        rw [List.mem_append, not_or]
        exact ⟨fun open? => ⟨open?, fun later => apart d member d (closesRest d later) rfl⟩,
          And.left⟩
      · refine List.filter_congr fun d member => decide_eq_decide.mpr ?_
        rw [List.mem_append, not_or]
        exact ⟨fun open? => ⟨fun first => apart d (p.closesAtOnce_subset first) d member rfl,
          open?⟩, And.right⟩

/-- What the pumps hold after their start is what they did not close. -/
theorem Launches.descriptors {ps ps' : List Pump} {events : List Event}
    (launches : Launches ps ps' events) (distinct : (ps.flatMap Pump.descriptors).Nodup) :
    ps'.flatMap Pump.descriptors = (ps.flatMap Pump.descriptors).filter (· ∉ closedBy events) := by
  rw [launches.closes]
  exact descriptors_of_launched launches.length launches.launched distinct

/-- Starting one pump keeps the account of descriptors. -/
private theorem launch {p : Pump} (account : w₀.Account w events) (sound₀ : w₀.Sound)
    (sound : w.Sound) (fresh : p.IsFresh) (left : ∀ d ∈ p.descriptors, d ∈ leftOpenBy events) :
    ∃ p' w' more, start.exec p w = (.ok (), p', w') ∧ Launches [p] [p'] more ∧
      w₀.Account w' (events ++ more) ∧
      w'.Sound ∧ w'.processes.map Process.still = w.processes.map Process.still := by
  obtain ⟨p', w₁, w', started, launched, ⟨exits, ran, ends⟩, passes⟩ :=
    exec_start fresh fun d member => account.isOpen (left d member)
  have account₁ : w₀.Account (w.emit (.threadStarted p.threadName))
      (events ++ [.threadStarted p.threadName]) :=
    account.quiet (events_emit _ _) rfl rfl rfl rfl rfl rfl
  have account₂ := account₁.passes ran
  have quiet : openedBy ([.threadStarted p.threadName] ++ exits) = [] := by
    rw [openedBy_append, openedBy_of_control ran.control]
    rfl
  have lasting : closedBy ([.threadStarted p.threadName] ++ exits) = [] := by
    rw [closedBy_append, closedBy_of_control ran.control]
    rfl
  have stillLeft : ∀ d ∈ p.closesAtOnce, d ∈ leftOpenBy (events ++ [.threadStarted p.threadName] ++
      exits) := by
    intro d member
    rw [List.append_assoc, leftOpenBy_append _ quiet, lasting, List.mem_filter]
    exact ⟨left d (p.closesAtOnce_subset member), by simp⟩
  have account₃ := (account₂.shutAll sound₀ (nodup_closesAtOnce fresh) stillLeft).passes passes
  refine ⟨p', w', [.threadStarted p.threadName] ++ exits ++ p.closesAtOnce.map .closed, started,
    launches_one launched ends, ?_, ?_, ?_⟩
  · simpa using account₃
  · exact (((sound.emitted _).passes ran).shutAll _).passes passes
  · rw [passes.still, processes_shutAll, ran.still]
    rfl

end Pump

namespace Handle

open World Pump

/-- Starting pumps one after the other, each with an end that is still open. -/
theorem run_onPumps_start {w₀ w : World} {events : List Event} {pumps : List Pump}
    (account : w₀.Account w events) (sound₀ : w₀.Sound) (sound : w.Sound)
    (fresh : ∀ p ∈ pumps, p.IsFresh)
    (distinct : (pumps.flatMap Pump.descriptors).Nodup)
    (left : ∀ d ∈ pumps.flatMap Pump.descriptors, d ∈ leftOpenBy events) :
    ∃ pumps' w' more, Id.run ((onPumps Pump.start pumps).run w) = ((.ok (), pumps'), w') ∧
      Launches pumps pumps' more ∧ w₀.Account w' (events ++ more) ∧ w'.Sound ∧
      w'.processes.map Process.still = w.processes.map Process.still := by
  induction pumps generalizing w events with
  | nil =>
    exact ⟨[], w, [], rfl, ⟨rfl, by simp, rfl, rfl, rfl, rfl⟩, by simpa using account, sound, rfl⟩
  | cons p rest ih =>
    rw [List.flatMap_cons] at distinct left
    obtain ⟨-, distinctRest, apart⟩ := List.nodup_append.mp distinct
    obtain ⟨p', w₁, first, started, one, account₁, sound₁, still₁⟩ :=
      Pump.launch account sound₀ sound (fresh p List.mem_cons_self) fun d member =>
        left d (List.mem_append_left _ member)
    have stillLeft : ∀ d ∈ rest.flatMap Pump.descriptors, d ∈ leftOpenBy (events ++ first) := by
      intro d member
      rw [leftOpenBy_append _ one.opens, one.closes, List.mem_filter]
      refine ⟨left d (List.mem_append_right _ member), decide_eq_true fun closed => ?_⟩
      rw [List.flatMap_singleton] at closed
      exact apart d (p.closesAtOnce_subset closed) d member rfl
    obtain ⟨rest', w', later, ran, others, account', sound', still⟩ :=
      ih account₁ sound₁ (fun q member => fresh q (List.mem_cons_of_mem _ member)) distinctRest
        stillLeft
    refine ⟨p' :: rest', w', first ++ later, ?_, one.append others, ?_, sound', still.trans still₁⟩
    · rw [run_onPumps_cons, started]
      dsimp only
      rw [ran]
    · rw [← List.append_assoc]
      exact account'

end Handle

end Pipework
