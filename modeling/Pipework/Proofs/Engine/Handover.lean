import Pipework.Proofs.Engine.Failure
import Pipework.Proofs.Wiring.Endpoints
import Pipework.Proofs.Wiring.Holders

/-!
# A successful start

When `spawn` succeeds, all commands run, and of everything that was opened only the far ends of the
pipes of buffers and of the caller's ends are left open. They are handed over to the pumps and to
the handle before the first pump starts. Who holds which end of a pipe at that moment follows from
the graph alone.
-/

namespace Pipework

/-- The system with everything that some events opened still open. -/
def World.withOpened (w : World) (events : List Event) : World :=
  { w with descriptors := w.descriptors ++ allocatedBy w.pipes.length w.openings.length events }

/-- The far ends of pipes that are kept to feed commands. -/
def Graph.fed (g : Graph) : List Claim :=
  g.kept.filter fun
    | .far _ s => s = .stdin
    | _ => false

/-- A start seen at the moment of handing over: the commands run, and the pumps have not started. -/
structure Graph.HandedOver (g : Graph) (value : Claim → Descriptor) (settings : StartSettings)
    (w w' : World) (events : List Event) (starts : List Start) : Prop where
  trace : w'.events = w.events ++ events
  /-- What is left open is kept for the pumps and for the caller, each end once. -/
  kept : (g.kept.map fun c => (value c).toNat).Perm (leftOpenBy events)
  distinct : (g.kept.map fun c => (value c).toNat).Nodup
  /-- Everything else that was opened has been closed exactly once. -/
  closed : ∀ d ∈ openedBy events, d ∉ (g.kept.map fun c => (value c).toNat) →
      (closedBy events).count d = 1
  /-- Nothing else has been closed. -/
  own : ∀ d ∈ closedBy events, d ∈ openedBy events
  fresh : ∀ d ∈ openedBy events, d ∉ w.descriptors.map (·.1)
  descriptors : (w'.descriptors.map (·.1)).Perm (w.descriptors.map (·.1) ++ g.kept.map fun c =>
      (value c).toNat)
  threads : events.filterMap Event.thread? = []
  tried : g.Tried value events starts
  processes : w'.processes = w.processes ++ starts.filterMap Start.process?
  /-- Every command runs on the channels that its three streams resolve to. -/
  children : ∀ s ∈ starts, ∃ p, s.result = .ok p ∧
    (w.withOpened events).Started (Wiring.requestOf { settings } s.command (s.context value)) p
  /-- The write end of a new pipe is held by the streams that it is the nearest claim of, and once
  more if it is kept to feed a command. -/
  writers : g.Hosted w → ∀ c pipe, (c, .writeEnd pipe) ∈ g.channels w →
    w'.holders (.writeEnd pipe) = g.uses c + if c ∈ g.fed then 1 else 0
  /-- The same for the read end, which is kept to drain a command. -/
  readers : g.Hosted w → ∀ c pipe, (c, .readEnd pipe) ∈ g.channels w →
    w'.holders (.readEnd pipe) = g.uses c + if c ∈ g.kept then 1 else 0

/-- The descriptor of the caller's end of a stream. -/
def Handle.endOf (h : Handle) : Stream → Option Nat
  | .stdin => h.stdin.map (·.descriptor)
  | .stdout => h.stdout.map (·.descriptor)
  | .stderr => h.stderr.map (·.descriptor)

/-- What a handle keeps of a start, when its pumps have been started. -/
structure Handle.Keeps (h : Handle) (value : Claim → Descriptor) (settings : StartSettings)
    (events launching : List Event) : Prop where
  /-- There is one pump for each redirect to a buffer, on the far end of its pipe, and it was
  started once. -/
  pumps : Pump.Launches (h.graph.buffers.mapIdx (Wiring.pumpOf value settings)) h.pumps launching
  /-- The handle's end of a stream is the far end of the pipe that was made for the caller's end. -/
  ends : ∀ s d, h.endOf s = some d ↔ ∃ place, (place, s) ∈ h.graph.endpoints ∧
      d = (value (.far place s)).toNat
  /-- Nothing is left open but what the pumps still hold and the caller's ends. -/
  left : (h.pumps.flatMap Pump.descriptors ++ h.graph.endpoints.map fun e =>
      (value (.far e.1 e.2)).toNat).Perm
    (leftOpenBy (events ++ launching))

namespace Wiring

open World

private theorem findSome?_eq_some_iff {α β κ : Type} [DecidableEq κ] {l : List α} {key : α → κ}
    {k : κ} {f : α → Option β} {content : α → β} (distinct : (l.map key).Nodup)
    (same : ∀ a, f a = if key a = k then some (content a) else none)
    (b : β) : l.findSome? f = some b ↔ ∃ a ∈ l, key a = k ∧ b = content a := by
  constructor
  · intro found
    obtain ⟨a, member, here⟩ := List.exists_of_findSome?_eq_some found
    rw [same] at here
    split at here
    · next isKey => exact ⟨a, member, isKey, (Option.some.inj here).symm⟩
    · cases here
  · rintro ⟨a, member, isKey, rfl⟩
    cases found : l.findSome? f with
    | none =>
      have absent := List.findSome?_eq_none_iff.mp found a member
      rw [same, if_pos isKey] at absent
      cases absent
    | some b =>
      obtain ⟨a', member', here⟩ := List.exists_of_findSome?_eq_some found
      rw [same] at here
      split at here
      · next isKey' =>
        rw [← Option.some.inj here, eq_of_nodup_map distinct member' member
          (isKey'.trans isKey.symm)]
      · cases here

variable {g : Graph} {value : Claim → Descriptor} {settings : StartSettings} {w₀ w : World}
    {σ : Wiring}
variable {events : List Event} {starts : List Start}

/-- The descriptor of the end that a wiring has made for the caller. -/
def endOf (σ : Wiring) : Stream → Option Nat
  | .stdin => σ.writer?.map (·.descriptor)
  | s => (σ.reader? s).map (·.descriptor)

theorem endOf_iff (served : Served value settings (g.chores []) σ events)
    (distinct : (g.endpoints.map (·.2)).Nodup) (s : Stream) (d : Nat) :
    σ.endOf s = some d ↔ ∃ place, (place, s) ∈ g.endpoints ∧ d = (value (.far place s)).toNat := by
  have found : σ.endOf s = g.endpoints.findSome? fun e =>
      if e.2 = s then some (value (.far e.1 e.2)).toNat else none := by
    have made : σ.endpoints = g.endpoints.map (endpointOf value) := served.endpoints
    cases s <;>
    · simp only [endOf, writer?, reader?, made, List.findSome?_map, List.map_findSome?]
      congr 1
      funext ⟨place, t⟩
      cases t <;> rfl
  rw [found, findSome?_eq_some_iff distinct (fun e => rfl)]
  constructor
  · rintro ⟨⟨place, s⟩, member, rfl, rfl⟩
    exact ⟨place, member, rfl⟩
  · rintro ⟨place, member, rfl⟩
    exact ⟨(place, s), member, rfl, rfl⟩

/-- A write end that is kept feeds a command. -/
private theorem kept_iff_fed {c : Claim} {pipe : Nat}
    (leads : (c, .writeEnd pipe) ∈ g.channels w₀) :
    c ∈ g.kept ↔ c ∈ g.fed := by
  refine ⟨fun kept => List.mem_filter.mpr ⟨kept, ?_⟩, fun fed => (List.mem_filter.mp fed).1⟩
  have isFar : ∃ place s, c = .far place s := by
    rcases List.mem_append.mp kept with member | member
    · obtain ⟨b, -, rfl⟩ := List.mem_map.mp member
      exact ⟨_, _, rfl⟩
    · obtain ⟨e, -, rfl⟩ := List.mem_map.mp member
      exact ⟨_, _, rfl⟩
  obtain ⟨place, s, rfl⟩ := isFar
  obtain ⟨reading, made⟩ := Making.pipe_of_writeEnd leads
  obtain ⟨chore, -, makes⟩ := List.mem_filterMap.mp made
  cases chore with
  | redirect place' s' t =>
    rcases Chore.making?_cases makes with ⟨name, mode, same⟩ | ⟨isStdin, same⟩ | same | ⟨d, same⟩
    · cases same
    · cases same
      simpa using isStdin
    · cases same
    · cases same
  | edge place => cases makes
  | start leaf above => cases makes
  | refuse e => cases makes

/-- The state in which a walk that has done everything is handed over. -/
theorem Progress.handedOver (progress : Progress (g.values w₀.nextDescriptor) settings w₀ w
    (g.chores []) σ events starts) (sound₀ : w₀.Sound) (fine : σ.failures = []) :
    g.HandedOver (g.values w₀.nextDescriptor) settings w₀
      (w.shutAll (σ.childDescriptors ++ σ.files))
      (events ++ (σ.childDescriptors ++ σ.files).map .closed) starts := by
  obtain ⟨-, kept⟩ := progress.exec_closeChildSide sound₀
  have account := kept.account
  have perm := progress.kept_perm sound₀
  have started : ∀ s ∈ starts, ∃ p, s.result = .ok p := by
    intro s member
    cases result : s.result with
    | ok p => exact ⟨p, rfl⟩
    | error e =>
      have failures := progress.roster.failures
      rw [fine] at failures
      have none := List.filterMap_eq_nil_iff.mp failures.symm s member
      rw [Start.failure?, result] at none
      cases none
  have same : allocatedBy w₀.pipes.length w₀.openings.length
      (events ++ (σ.childDescriptors ++ σ.files).map .closed)
      = allocatedBy w₀.pipes.length w₀.openings.length events := by
    rw [allocatedBy_append, allocatedBy_of_quiet (openedBy_map_closed _), List.append_nil]
  refine
    { trace := account.trace
      kept := perm
      distinct := perm.nodup_iff.mpr (account.nodup_opened.filter _)
      closed := fun d opened other => account.closed_once opened fun left =>
        other (perm.mem_iff.mpr left)
      own := account.own
      fresh := account.fresh sound₀
      descriptors := account.map_fst_descriptors ▸ perm.symm.append_left _
      threads := ?_
      tried := progress.tried (filter_isStart_map_closed _)
      processes := by rw [processes_shutAll, progress.roster.processes]
      children := ?_
      writers := fun hosted c pipe leads => ?_
      readers := fun hosted c pipe leads => progress.holders sound₀ hosted started leads rfl }
  · rw [List.filterMap_append, List.append_eq_nil_iff]
    refine ⟨List.filterMap_eq_nil_iff.mpr fun e member => ?_,
      List.filterMap_eq_nil_iff.mpr fun e member => ?_⟩
    · have isWiring := progress.ledger.wiring e member
      cases e <;> first | rfl | cases isWiring
    · obtain ⟨d, _, rfl⟩ := List.mem_map.mp member
      rfl
  · intro s member
    obtain ⟨p, result⟩ := started s member
    refine ⟨p, result, ?_⟩
    have streams := progress.roster.streams s member p result
    have request : σ.requestOf s.command (s.context (g.values w₀.nextDescriptor))
        = Wiring.requestOf { settings } s.command (s.context (g.values w₀.nextDescriptor)) := by
      rw [requestOf, requestOf, progress.roster.settings]
    rw [request] at streams
    have grown : (w₀.withOpened (events ++ (σ.childDescriptors ++ σ.files).map .closed)).descriptors
        = w.descriptors ++ [] := by
      change w₀.descriptors ++ allocatedBy _ _ _ = _
      rw [same, progress.served.allocated, List.append_nil, progress.descriptors]
      rfl
    exact streams.mono grown
  · rw [progress.holders sound₀ hosted started leads rfl]
    simp only [kept_iff_fed leads]

end Wiring

namespace Engine

variable {item : Item} {values : RedirectValues} {e e' : Engine} {w w' : World} {handle : Handle}

/-- What is left open after the pumps have been started. -/
private theorem left_perm {σ : Wiring} {w₀ w : World} {events launching : List Event}
    {pumps : List Pump} (kept : Wiring.Kept w₀ w σ events)
    (launches : Pump.Launches σ.pumps pumps launching) :
    (pumps.flatMap Pump.descriptors ++ σ.endpoints.map (·.2.descriptor)).Perm
      (leftOpenBy (events ++ launching)) := by
  have distinct := kept.kept.nodup_iff.mpr (kept.account.nodup_opened.filter _)
  obtain ⟨-, distinctPumps, apart⟩ := List.nodup_append.mp distinct
  have ends : (σ.endpoints.map (·.2.descriptor)).filter (· ∉ closedBy launching) =
      σ.endpoints.map (·.2.descriptor) := by
    refine List.filter_eq_self.mpr fun d member => decide_eq_true fun shut => ?_
    rw [launches.closes] at shut
    obtain ⟨p, known, closes⟩ := List.mem_flatMap.mp shut
    exact apart d member d (List.mem_flatMap.mpr ⟨p, known, p.closesAtOnce_subset closes⟩) rfl
  have split := kept.kept.filter (· ∉ closedBy launching)
  rw [List.filter_append, ends, ← launches.descriptors distinctPumps] at split
  rw [leftOpenBy_append _ launches.opens]
  exact List.perm_append_comm.trans split

/-- **Descriptors are conserved by a successful start.** At the moment when the walk has ended and
the side of the commands is closed, only what pumps and caller keep is open; the pumps are then
started, and all of it is with the handle in the end. -/
theorem spawn_conserves_descriptors (sound : w.Sound)
    (spawned : (spawn item values).exec e w = (.ok handle, e', w')) :
    ∃ w₁ σ w₂ events launching starts,
      Begins item values w handle.graph w₁ ∧ (wire e.settings handle.graph).exec w₁ = (.ok σ, w₂) ∧
      handle.graph.HandedOver (handle.graph.values w.nextDescriptor) e.settings w w₂ events starts ∧
      handle.Keeps (handle.graph.values w.nextDescriptor) e.settings events launching ∧
      w.Account w' (events ++ launching) ∧
      e' = { e with stats := { e.stats with
        graphs := e.stats.graphs + 1
        processes := e.stats.processes + handle.graph.leaves.length } } := by
  obtain ⟨w₁, w₂, σ, events, launching, starts, succeeds⟩ := spawn_ok sound spawned
  obtain ⟨begins, progress, fine, wired, launches, account, -, isHandle, counted⟩ := succeeds
  have sound₁ := sound.passes begins.passes
  obtain ⟨-, kept⟩ := progress.exec_closeChildSide sound₁
  have handed := progress.handedOver sound₁ fine
  have left := left_perm kept launches
  have buffers : σ.pumps = _ := progress.served.pumps
  have endpoints : σ.endpoints = _ := progress.served.endpoints
  have ends := Wiring.endOf_iff progress.served (nodup_endpoints begins.checked)
  have count : σ.processes.length = handle.graph.leaves.length := by
    rw [progress.roster.entries, ← handed.tried.leaves, List.length_map,
      List.filterMap_length_eq_length]
    intro s member
    obtain ⟨p, result, -⟩ := handed.children s member
    rw [Start.entry?, Start.process?, result]
    rfl
  obtain ⟨n, rfl⟩ := begins.drawn
  refine ⟨_, _, _, events ++ (σ.childDescriptors ++ σ.files).map .closed, launching, starts, begins,
    wired, ?_, ⟨?_, ?_, ?_⟩, ?_, by rw [counted, count]⟩
  · refine { handed with children := fun s member => ?_ }
    obtain ⟨p, result, started⟩ := handed.children s member
    exact ⟨p, result, started.mono (List.append_nil _).symm⟩
  · rw [buffers] at launches
    exact launches
  · intro s d
    rw [← ends]
    rw [isHandle]
    cases s <;> rfl
  · have same : (σ.endpoints.map (·.2.descriptor))
        = handle.graph.endpoints.map fun e =>
          (handle.graph.values w.nextDescriptor (.far e.1 e.2)).toNat := by
      rw [endpoints, List.map_map]
      exact List.map_congr_left fun e _ => Wiring.descriptor_newEndpoint e.2 _
    rw [← same]
    exact left
  · exact { account with }

/-- A start of the small graph: three commands run, and of four pipes one end feeds `a` and one is
the caller's. -/
theorem spawn_small_conserves_descriptors :
    ∃ handle e' w' w₂ events launching starts,
      (spawn smallGraph.toItem {}).exec {} (smallWorld ['a', 'b']) = (.ok handle, e', w') ∧
      handle.graph.HandedOver (handle.graph.values 10) {} (smallWorld ['a', 'b']) w₂ events starts ∧
      handle.Keeps (handle.graph.values 10) {} events launching ∧
        (openedBy (events ++ launching)).length = 8 ∧
      leftOpenBy (events ++ launching) = [14] ∧
        e'.stats = { graphs := 1, processes := 3, spawnFailures := 0 } := by
  have succeeds : ((spawn smallGraph.toItem {}).exec {} (smallWorld ['a', 'b'])).1.isOk = true := by
    decide +kernel
  have opens :
      (openedBy ((spawn smallGraph.toItem {}).exec {}
        (smallWorld ['a', 'b'])).2.2.events).length = 8 := by
    decide +kernel
  have leaves : leftOpenBy ((spawn smallGraph.toItem {}).exec {}
      (smallWorld ['a', 'b'])).2.2.events = [14] := by
    decide +kernel
  have counts : ((spawn smallGraph.toItem {}).exec {} (smallWorld ['a', 'b'])).2.1.stats
      = { graphs := 1, processes := 3, spawnFailures := 0 } := by decide +kernel
  generalize run : (spawn smallGraph.toItem {}).exec {} (smallWorld ['a', 'b']) = result
    at succeeds opens leaves counts
  obtain ⟨outcome, e', w'⟩ := result
  cases outcome with
  | error failure => cases succeeds
  | ok handle =>
    obtain ⟨w₁, σ, w₂, events, launching, starts, -, -, handed, keeps, account, -⟩ :=
      spawn_conserves_descriptors (smallWorld_sound ['a', 'b']) run
    have all : w'.events = events ++ launching := account.trace
    exact ⟨handle, e', w', w₂, events, launching, starts, rfl, handed, keeps, all ▸ opens,
      all ▸ leaves, counts⟩

end Engine

end Pipework
