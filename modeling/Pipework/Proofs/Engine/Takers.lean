import Mathlib.Data.List.Basic
import Pipework.Proofs.Engine.Handover

/-!
# Which processes take a descriptor

A trace shows the descriptors that every process is started on. When the descriptors that the caller
gives are open already, an opened descriptor is shown for exactly those streams whose nearest claim it
was opened for. So what is said of claims can be read off the trace.
-/

namespace Pipework

namespace Event

/-- The descriptor that a stream of a started process is on; none stands for the host's. -/
def descriptor? (s : Stream) : Event → Option Descriptor
  | spawned _ _ stdin stdout stderr =>
    match s with
    | .stdin => stdin
    | .stdout => stdout
    | .stderr => stderr
  | _ => none

/-- Whether an event starts a process with a stream on a descriptor. -/
def takes (s : Stream) (n : Nat) (e : Event) : Bool :=
  (e.descriptor? s).map Descriptor.toInt = some (n : Int)

theorem isStart_of_takes {s : Stream} {n : Nat} {e : Event} (takes : e.takes s n) : e.isStart := by
  cases e <;> first | rfl | simp [Event.takes, descriptor?] at takes

end Event

/-- What the trace of a start shows of a graph whose commands all run. -/
structure Graph.Shown (g : Graph) (value : Claim → Descriptor) (w : World) (events : List Event)
    (starts : List Start) : Prop where
  occurrences : starts.map (fun s => (s.leaf, s.above)) = g.occurrences
  shown : events.filter Event.isStart = starts.map (Start.event value)
  started : ∀ s ∈ starts, ∃ p, s.result = .ok p
  /-- No two processes have the same number. -/
  distinct : (startedBy events).Nodup
  made : events.filter Event.isMaking = (Chore.makings (g.chores [])).filterMap
      (Making.event? value)
  /-- A process is on an opened descriptor exactly if the claim that got it decides the stream. -/
  takes : g.Hosted w → ∀ s ∈ starts, ∀ t, ∀ c ∈ g.allocated,
    (s.event value).takes t (value c).toNat ↔ s.leaf.nearest s.above t = some c

namespace Graph.Shown

variable {g : Graph} {value : Claim → Descriptor} {w : World} {events : List Event}
variable {starts : List Start} (shown : g.Shown value w events starts)
include shown

theorem start_of_takes {e : Event} (member : e ∈ events) {t : Stream} {n : Nat}
    (takes : e.takes t n) : ∃ s ∈ starts, s.event value = e := by
  have isStart := List.mem_filter.mpr ⟨member, Event.isStart_of_takes takes⟩
  rw [shown.shown] at isStart
  exact List.mem_map.mp isStart

theorem pipe_of_mem {reading writing : Nat} (member : .pipe reading writing ∈ events) :
    ∃ a b, .pipe a b ∈ Chore.makings (g.chores []) ∧ (value a).toNat = reading ∧
      (value b).toNat = writing := by
  have isMaking : .pipe reading writing ∈ events.filter Event.isMaking :=
    List.mem_filter.mpr ⟨member, rfl⟩
  rw [shown.made] at isMaking
  obtain ⟨m, made, event⟩ := List.mem_filterMap.mp isMaking
  cases m with
  | pipe a b =>
    cases event
    exact ⟨a, b, made, rfl, rfl⟩
  | file name mode claim => cases event
  | given d claim => cases event

theorem pipe_mem {a b : Claim} (made : .pipe a b ∈ Chore.makings (g.chores [])) :
    .pipe (value a).toNat (value b).toNat ∈ events := by
  have isMaking := List.mem_filterMap.mpr ⟨_, made, show Making.event? value (.pipe a b) = _ from rfl⟩
  rw [← shown.made] at isMaking
  exact (List.mem_filter.mp isMaking).1

/-- As many processes are on an opened descriptor as leaves take it. -/
theorem length_filter_takes (hosted : g.Hosted w) (t : Stream) {c : Claim} (allocated : c ∈ g.allocated) :
    (events.filter (Event.takes t (value c).toNat)).length = (g.takers t c).length := by
  have starting : events.filter (Event.takes t (value c).toNat) =
      (events.filter Event.isStart).filter (Event.takes t (value c).toNat) := by
    rw [List.filter_filter]
    refine List.filter_congr fun e _ => ?_
    cases takes : e.takes t (value c).toNat with
    | false => rfl
    | true => rw [Event.isStart_of_takes takes, Bool.and_self]
  have same : ∀ s ∈ starts, (Event.takes t (value c).toNat ∘ Start.event value) s =
      ((fun o : Graph × Lineage => decide (o.1.nearest o.2 t = some c)) ∘
        fun s => (s.leaf, s.above)) s := by
    intro s member
    exact Bool.eq_iff_iff.mpr ((shown.takes hosted s member t c allocated).trans decide_eq_true_iff.symm)
  rw [starting, shown.shown, Graph.takers, ← shown.occurrences, List.filter_map, List.filter_map,
    List.length_map, List.length_map, List.filter_congr same]

private theorem startedBy_eq_map :
    startedBy events = starts.map fun s => (s.event value).started?.getD 0 := by
  rw [startedBy_eq, shown.shown, List.filterMap_map]
  refine List.filterMap_eq_map_iff_forall_eq_some.mpr fun s member => ?_
  obtain ⟨p, result⟩ := shown.started s member
  rw [Function.comp_apply, Start.event, result]
  rfl

/-- Every leaf that stands in the graph runs as a process. -/
theorem length_startedBy : (startedBy events).length = g.occurrences.length := by
  rw [shown.startedBy_eq_map, ← shown.occurrences, List.length_map, List.length_map]

/-- A process runs one leaf. -/
theorem start_unique {s s' : Start} (member : s ∈ starts) (member' : s' ∈ starts)
    (same : (s.event value).started? = (s'.event value).started?) : s = s' := by
  have distinct := shown.distinct
  rw [shown.startedBy_eq_map] at distinct
  exact eq_of_nodup_map distinct member member' (congrArg (·.getD 0) same)

end Graph.Shown

namespace Engine

variable {item : Item} {values : RedirectValues} {e e' : Engine} {w w' w₁ w₂ : World}
variable {handle : Handle} {σ : Wiring} {events launching : List Event} {starts : List Start}

/-- A claim decides a stream exactly if the stream is on what was opened for it. What the caller gives
is older than everything that was opened. -/
private theorem toInt_eq_iff (sound : w₁.Sound) (hosted : handle.graph.Hosted w₁)
    (progress : Wiring.Progress (handle.graph.values w₁.nextDescriptor) e.settings w₁ w₂
      (handle.graph.chores []) σ events starts)
    {s : Start} (member : s ∈ starts) {t : Stream} {c : Claim} (allocated : c ∈ handle.graph.allocated) :
    ((s.leaf.nearest s.above t).map (handle.graph.values w₁.nextDescriptor)).map Descriptor.toInt =
      some (((handle.graph.values w₁.nextDescriptor c).toNat : Nat) : Int) ↔
        s.leaf.nearest s.above t = some c := by
  obtain ⟨n, -, isNumber, large⟩ := progress.value_of_allocated allocated
  rw [isNumber, Descriptor.toNat_number]
  cases nearest : s.leaf.nearest s.above t with
  | none => simp
  | some d =>
    rw [Option.map_some, Option.map_some, Option.some_inj, Option.some_inj]
    constructor
    · intro same
      have occurs : (s.leaf, s.above) ∈ handle.graph.occurrences := by
        rw [Graph.occurrences, ← progress.roster.occurrences]
        exact List.mem_map.mpr ⟨s, member, rfl⟩
      obtain ⟨m, made, claimed⟩ := List.mem_flatMap.mp
        (handle.graph.nearest_mem_claims progress.possible occurs nearest)
      rcases Making.mem_claims.mp claimed with mine | ⟨given, rfl⟩
      · have isAllocated : d ∈ handle.graph.allocated := List.mem_flatMap.mpr ⟨m, made, mine⟩
        obtain ⟨k, -, isNumber', -⟩ := progress.value_of_allocated isAllocated
        rw [isNumber'] at same
        refine progress.injective isAllocated allocated ?_
        rw [isNumber, isNumber', show (k : Int) = n from same]
      · rw [(handle.graph.fit_values w₁.nextDescriptor).of_given made] at same
        rcases hosted given d made with isNull | ⟨x, isOpen, old⟩
        · rw [isNull, Target.nullNumber] at same
          omega
        · have older := sound.descriptors x (List.mem_append_left _ isOpen)
          omega
    · rintro rfl
      rw [isNumber]
      rfl

/-- A start that has succeeded shows its graph. -/
theorem Succeeds.shows (sound : w.Sound)
    (succeeds : Succeeds item values e w handle e' w' w₁ w₂ σ events launching starts) :
    handle.graph.Shown (handle.graph.values w.nextDescriptor) w
      (events ++ (σ.childDescriptors ++ σ.files).map .closed ++ launching) starts := by
  obtain ⟨begins, progress, fine, wired, launches, account, -, -, -⟩ := succeeds
  have sound₁ := sound.passes begins.passes
  obtain ⟨n, rfl⟩ := begins.drawn
  have handed := progress.handedOver sound₁ fine
  have shown : (events ++ (σ.childDescriptors ++ σ.files).map Event.closed ++ launching).filter
      Event.isStart = starts.map (Start.event (handle.graph.values w.nextDescriptor)) := by
    rw [List.filter_append, handed.tried.shown, launches.starts, List.append_nil]
  refine
    { occurrences := progress.roster.occurrences
      shown := shown
      started := fun s member => (handed.children s member).imp fun p child => child.1
      distinct := ?_
      made := ?_
      takes := fun hosted s member t c allocated => ?_ }
  · have pids : startedBy events = (starts.filterMap Start.process?).map (·.pid) := by
      rw [progress.roster.started, progress.roster.entries, List.map_filterMap, List.map_filterMap]
      congr 1
      funext s
      simp only [Start.entry?, Option.map_map]
      rfl
    rw [startedBy_eq, shown, ← progress.roster.shown, ← startedBy_eq, pids, progress.roster.pids]
    exact List.nodup_range'
  · rw [List.filter_append, List.filter_append, progress.served.shown,
      filter_isMaking (openedBy_map_closed _), filter_isMaking launches.opens, List.append_nil,
      List.append_nil]
  · obtain ⟨p, result, -⟩ := handed.children s member
    have onStream : (s.event (handle.graph.values w.nextDescriptor)).descriptor? t =
        (s.leaf.nearest s.above t).map (handle.graph.values w.nextDescriptor) := by
      rw [Start.event, result]
      cases t <;> rfl
    rw [Event.takes, onStream, decide_eq_true_iff]
    exact toInt_eq_iff sound₁ hosted progress member allocated

end Engine

end Pipework
