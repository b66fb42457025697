import Pipework.Proofs.Engine.Handover
import Pipework.Proofs.Exchange.Calling
import Pipework.Proofs.Wiring.Kept

/-!
# What a new handle owns

When a start has succeeded, the far end of the pipe for the caller or for a pump that drains is still open,
and nobody else has that end: no command was started on it, and it is open under one number
(`Succeeds.owned`). So the handle owns what a call relies on (`Succeeds.handle_owned`).
-/

namespace Pipework

namespace Engine

open Pipework.Graph World

variable {item : Item} {values : RedirectValues} {e e' : Engine} {w w' w₁ w₂ : World}
variable {handle : Handle} {σ : Wiring} {events launching : List Event} {starts : List Start}

namespace Succeeds

variable (succeeds : Succeeds item values e w handle e' w' w₁ w₂ σ events launching starts)
include succeeds

/-! ## Descriptors -/

/-- What is open after a start: what was open before, and what the start has opened and not closed. -/
theorem mem_descriptors (x : Nat × Channel) :
    x ∈ w'.descriptors ↔ x ∈ w₁.descriptors ∨ (∃ c ∈ handle.graph.channels w₁,
      ((handle.graph.values w₁.nextDescriptor c.1).toNat, c.2) = x) ∧
        x.1 ∉ closedBy (events ++ (σ.childDescriptors ++ σ.files).map .closed ++ launching) := by
  rw [succeeds.account.descriptors, List.mem_append, List.mem_filter, decide_eq_true_iff,
    allocatedBy_append, allocatedBy_append, allocatedBy_of_quiet (openedBy_map_closed _),
    allocatedBy_of_quiet succeeds.launches.opens, List.append_nil, List.append_nil,
    succeeds.progress.served.allocated, List.mem_map]
  rfl

/-- The pumps of a wiring are those of the redirects to buffers. -/
theorem pump_cases {p : Pump} (known : p ∈ σ.pumps) : ∃ number, ∃ b ∈ handle.graph.buffers,
    p = Wiring.pumpOf (handle.graph.values w₁.nextDescriptor) e.settings number b := by
  rw [succeeds.progress.served.pumps] at known
  obtain ⟨number, inRange, rfl⟩ := List.mem_mapIdx.mp known
  exact ⟨number, _, List.getElem_mem inRange, rfl⟩

/-- Of what is kept, the pumps close at once only what feeds a command. -/
private theorem not_closed_of_kept (sound : w.Sound) {place : Place} {s : Stream}
    (kept : .far place s ∈ handle.graph.kept)
    (stays : s = .stdin → ∀ held, (place, s, held) ∉ handle.graph.buffers) :
    (handle.graph.values w₁.nextDescriptor (.far place s)).toNat
      ∉ closedBy (events ++ (σ.childDescriptors ++ σ.files).map .closed ++ launching) := by
  have sound₁ := sound.passes succeeds.begins.passes
  rw [closedBy_append, List.mem_append, not_or]
  constructor
  · have left := (succeeds.progress.kept_perm sound₁).mem_iff.mp (List.mem_map_of_mem kept)
    exact of_decide_eq_true (List.mem_filter.mp left).2
  · intro closed
    rw [succeeds.launches.closes] at closed
    obtain ⟨p, known, closes⟩ := List.mem_flatMap.mp closed
    obtain ⟨number, ⟨place', s', held⟩, isBuffer, rfl⟩ := succeeds.pump_cases known
    have isKept : .far place' s' ∈ handle.graph.kept :=
      List.mem_append_left _ (List.mem_map.mpr ⟨_, isBuffer, rfl⟩)
    unfold Pump.closesAtOnce at closes
    split at closes
    · next feeds =>
      have same := succeeds.progress.toNat_injective (handle.graph.kept_subset _ kept)
        (handle.graph.kept_subset _ isKept) (List.mem_singleton.mp closes)
      cases same
      refine stays ?_ held isBuffer
      by_contra isOutput
      simp [Wiring.pumpOf, Pump.make, Wiring.directionOf, isOutput] at feeds
    · cases closes

/-! ## Processes -/

/-- No process was started on an end that is kept. -/
private theorem holds_kept (sound : w.Sound) (hosted : handle.graph.Hosted w) {v : World}
    (still : v.processes.map Process.still = w₂.processes.map Process.still) {c : Claim × Channel}
    (isClaim : c ∈ handle.graph.channels w₁) (kept : c.1 ∈ handle.graph.kept) {pipe : Nat}
    (isEnd : c.2.pipe? = some pipe) {p : Process} (member : p ∈ v.processes) : p.holds c.2 = 0 := by
  have sound₁ := sound.passes succeeds.begins.passes
  have hosted₁ : handle.graph.Hosted w₁ := by
    obtain ⟨n, same⟩ := succeeds.begins.drawn
    rw [same]
    exact hosted
  have known : p.still ∈ w₂.processes.map Process.still := still ▸ List.mem_map_of_mem member
  obtain ⟨q, known, same⟩ := List.mem_map.mp known
  have absent := succeeds.progress.not_stream_of_kept sound₁ hosted₁ isClaim kept isEnd known
  rw [Process.streams_of_still same] at absent
  simp [Process.holds, List.count_eq_zero.mpr absent]

/-- The processes of the handle are those that were started, in their order. -/
theorem pids_eq : handle.pids = (starts.filterMap Start.process?).map (·.pid) := by
  rw [succeeds.handle, Handle.pids, succeeds.progress.roster.entries, List.map_filterMap, List.map_filterMap]
  congr 1
  funext s
  rw [Start.entry?, Option.map_map]
  rfl

/-- No two of them are the same. -/
theorem nodup_pids : handle.pids.Nodup := by
  rw [succeeds.pids_eq, succeeds.progress.roster.pids]
  exact List.nodup_range'

/-- Every process of the handle is there. -/
theorem exit?_isSome {pid : Nat} (member : pid ∈ handle.pids) : (w'.exit? pid).isSome := by
  rw [succeeds.pids_eq] at member
  obtain ⟨q, started, rfl⟩ := List.mem_map.mp member
  have known : q ∈ w₂.processes := by
    rw [succeeds.progress.roster.processes]
    exact List.mem_append_right _ started
  have still : q.still ∈ w'.processes.map Process.still :=
    succeeds.still ▸ List.mem_map_of_mem known
  obtain ⟨p, there, same⟩ := List.mem_map.mp still
  rw [exit?, Option.isSome_map, process?, List.find?_isSome]
  exact ⟨p, there, by simpa using Process.pid_of_still same⟩

/-! ## Ends -/

/-- What was opened leads to where its claim does, as long as it is open. -/
private theorem channel?_of_open (sound : w.Sound) {v : World}
    (opened : ∀ x ∈ v.descriptors, x ∈ w₁.descriptors ∨ ∃ c ∈ handle.graph.channels w₁,
      ((handle.graph.values w₁.nextDescriptor c.1).toNat, c.2) = x)
    {c : Claim × Channel} (leads : c ∈ handle.graph.channels w₁)
    (isOpen : ((handle.graph.values w₁.nextDescriptor c.1).toNat, c.2) ∈ v.descriptors) :
    v.channel? (handle.graph.values w₁.nextDescriptor c.1).toNat = some c.2 := by
  have sound₁ := sound.passes succeeds.begins.passes
  have allocated {c : Claim × Channel} (member : c ∈ handle.graph.channels w₁) :
      c.1 ∈ handle.graph.allocated := by
    rw [← handle.graph.map_fst_channels w₁]
    exact List.mem_map_of_mem member
  have distinct : ((handle.graph.channels w₁).map (·.1)).Nodup := by
    rw [handle.graph.map_fst_channels w₁]
    exact handle.graph.nodup_allocated
  refine Option.map_eq_some_iff.mpr ⟨_, Wiring.find?_of_unique isOpen (by simp) fun x member same => ?_, rfl⟩
  have same : x.1 = (handle.graph.values w₁.nextDescriptor c.1).toNat :=
    Int.ofNat_inj.mp (by simpa using same)
  rcases opened x member with old | ⟨c', known, rfl⟩
  · obtain ⟨n, -, isNumber, large⟩ := succeeds.progress.value_of_allocated (allocated leads)
    have small := sound₁.descriptors x (List.mem_append_left _ old)
    rw [isNumber, Descriptor.toNat_number] at same
    omega
  · have equal := succeeds.progress.toNat_injective (allocated known) (allocated leads) same
    rw [eq_of_nodup_map distinct known leads equal]

/-- An end that is kept is the keeper's alone, as long as it is open and only the pumps have closed anything. -/
theorem owned_of_open (sound : w.Sound) (hosted : handle.graph.Hosted w) {v : World} (soundly : v.Sound)
    (opened : ∀ x ∈ v.descriptors, x ∈ w₁.descriptors ∨ ∃ c ∈ handle.graph.channels w₁,
      ((handle.graph.values w₁.nextDescriptor c.1).toNat, c.2) = x)
    (still : v.processes.map Process.still = w₂.processes.map Process.still) {place : Place} {s : Stream}
    (kept : .far place s ∈ handle.graph.kept) {pipe : Nat}
    (leads : (.far place s, farChannel s pipe) ∈ handle.graph.channels w₁)
    (isOpen : ((handle.graph.values w₁.nextDescriptor (.far place s)).toNat, farChannel s pipe) ∈ v.descriptors) :
    v.Owned (handle.graph.values w₁.nextDescriptor (.far place s)).toNat (farChannel s pipe) pipe := by
  have sound₁ := sound.passes succeeds.begins.passes
  have isNew := Making.channels_range leads pipe (pipe?_farChannel s pipe)
  refine
    { leads := succeeds.channel?_of_open sound opened leads isOpen
      isEnd := pipe?_farChannel s pipe
      known := soundly.ends _ (List.mem_append_left _ isOpen) pipe (pipe?_farChannel s pipe)
      exclusive := ⟨fun x member same => ?_, fun p member =>
        succeeds.holds_kept sound hosted still leads kept (pipe?_farChannel s pipe) member⟩ }
  rcases opened x member with old | ⟨c, known, rfl⟩
  · have := sound₁.ends x (List.mem_append_left _ old) pipe (same ▸ pipe?_farChannel s pipe)
    omega
  · rw [eq_of_nodup_map (Making.nodup_channels _ _ _) known leads same]

/-- After the start what is open was open before, or was opened. -/
private theorem opened (x : Nat × Channel) (member : x ∈ w'.descriptors) : x ∈ w₁.descriptors ∨
    ∃ c ∈ handle.graph.channels w₁, ((handle.graph.values w₁.nextDescriptor c.1).toNat, c.2) = x :=
  ((succeeds.mem_descriptors x).mp member).imp_right And.left

/-- An end that is kept is open, as long as no pump has closed it. -/
private theorem mem_of_kept (sound : w.Sound) {place : Place} {s : Stream}
    (kept : .far place s ∈ handle.graph.kept)
    (stays : s = .stdin → ∀ held, (place, s, held) ∉ handle.graph.buffers) {pipe : Nat}
    (leads : (.far place s, farChannel s pipe) ∈ handle.graph.channels w₁) :
    ((handle.graph.values w₁.nextDescriptor (.far place s)).toNat, farChannel s pipe) ∈ w'.descriptors :=
  (succeeds.mem_descriptors _).mpr (.inr ⟨⟨_, leads, rfl⟩, succeeds.not_closed_of_kept sound kept stays⟩)

/-- Its number leads to the far end of the pipe. -/
theorem channel?_of_kept (sound : w.Sound) {place : Place} {s : Stream}
    (kept : .far place s ∈ handle.graph.kept)
    (stays : s = .stdin → ∀ held, (place, s, held) ∉ handle.graph.buffers) {pipe : Nat}
    (leads : (.far place s, farChannel s pipe) ∈ handle.graph.channels w₁) :
    w'.channel? (handle.graph.values w₁.nextDescriptor (.far place s)).toNat = some (farChannel s pipe) :=
  succeeds.channel?_of_open sound succeeds.opened leads (succeeds.mem_of_kept sound kept stays leads)

/-- An end that is kept is the keeper's alone, as long as no pump has closed it. -/
theorem owned (sound : w.Sound) (hosted : handle.graph.Hosted w) {place : Place} {s : Stream}
    (kept : .far place s ∈ handle.graph.kept)
    (stays : s = .stdin → ∀ held, (place, s, held) ∉ handle.graph.buffers) {pipe : Nat}
    (leads : (.far place s, farChannel s pipe) ∈ handle.graph.channels w₁) :
    w'.Owned (handle.graph.values w₁.nextDescriptor (.far place s)).toNat (farChannel s pipe) pipe :=
  succeeds.owned_of_open sound hosted succeeds.sound succeeds.opened succeeds.still kept leads
    (succeeds.mem_of_kept sound kept stays leads)

/-- The caller's end of stdin is the far end of the pipe for a redirect to the caller. -/
theorem stdin_cases {r : Writer} (stdin : handle.stdin = some r) :
    ∃ place, (place, .stdin) ∈ handle.graph.endpoints ∧
      r = ⟨(handle.graph.values w₁.nextDescriptor (.far place .stdin)).toNat, [], false⟩ := by
  rw [succeeds.handle] at stdin
  obtain ⟨_, member, found⟩ := List.exists_of_findSome?_eq_some stdin
  rw [succeeds.progress.served.endpoints] at member
  obtain ⟨⟨place, s⟩, isEndpoint, rfl⟩ := List.mem_map.mp member
  cases s <;> cases found
  exact ⟨place, isEndpoint, rfl⟩

/-- So is the caller's end of an output. -/
theorem reader_cases {s : Stream} {r : Reader} (output : handle.reader? s = some r) :
    s ≠ .stdin ∧ ∃ place, (place, s) ∈ handle.graph.endpoints ∧
      r = ⟨(handle.graph.values w₁.nextDescriptor (.far place s)).toNat, false⟩ := by
  have isOutput : s ≠ .stdin := by
    rintro rfl
    cases output
  refine ⟨isOutput, ?_⟩
  have made : σ.reader? s = some r := by
    rw [succeeds.handle] at output
    cases s with
    | stdin => exact absurd rfl isOutput
    | stdout => exact output
    | stderr => exact output
  obtain ⟨_, member, found⟩ := List.exists_of_findSome?_eq_some made
  rw [succeeds.progress.served.endpoints] at member
  obtain ⟨⟨place, t⟩, isEndpoint, rfl⟩ := List.mem_map.mp member
  cases t with
  | stdin => cases found
  | stdout | stderr =>
    simp only [Wiring.endpointOf, Wiring.newEndpoint, reduceCtorEq, if_false, Option.ite_none_right_eq_some,
      Option.some.injEq] at found
    obtain ⟨rfl, rfl⟩ := found
    exact ⟨place, isEndpoint, rfl⟩

/-- An end of the caller's is the caller's alone. -/
theorem endpoint_owned (sound : w.Sound) (hosted : handle.graph.Hosted w) {place : Place}
    {s : Stream} (isEndpoint : (place, s) ∈ handle.graph.endpoints) :
    .far place s ∈ handle.graph.kept ∧ ∃ pipe,
      (.far place s, farChannel s pipe) ∈ handle.graph.channels w₁ ∧
      w'.Owned (handle.graph.values w₁.nextDescriptor (.far place s)).toNat (farChannel s pipe) pipe := by
  have kept : .far place s ∈ handle.graph.kept :=
    List.mem_append_right _ (List.mem_map.mpr ⟨_, isEndpoint, rfl⟩)
  obtain ⟨pipe, leads⟩ := channel_of_kept kept w₁
  refine ⟨kept, pipe, leads, succeeds.owned sound hosted kept (fun _ held isBuffer => ?_) leads⟩
  exact not_buffer_of_endpoint isEndpoint isBuffer

/-- Ends of the caller's that are on one pipe are of one stream. -/
private theorem eq_of_pipeOf? (sound : w.Sound) (hosted : handle.graph.Hosted w) {place place' : Place}
    {s s' : Stream} (isEndpoint : (place, s) ∈ handle.graph.endpoints)
    (isEndpoint' : (place', s') ∈ handle.graph.endpoints)
    (same : w'.pipeOf? (handle.graph.values w₁.nextDescriptor (.far place s)).toNat
      = w'.pipeOf? (handle.graph.values w₁.nextDescriptor (.far place' s')).toNat) : s = s' := by
  obtain ⟨kept, pipe, leads, mine⟩ := succeeds.endpoint_owned sound hosted isEndpoint
  obtain ⟨kept', pipe', leads', mine'⟩ := succeeds.endpoint_owned sound hosted isEndpoint'
  rw [mine.pipeOf?, mine'.pipeOf?] at same
  cases same
  exact (Claim.far.inj (eq_of_kept_pipe kept kept' leads leads' (pipe?_farChannel _ _)
    (pipe?_farChannel _ _))).2

/-- The caller's ends are on the pipes for the redirects to the caller. -/
private theorem owns_cases (sound : w.Sound) (hosted : handle.graph.Hosted w) {pipe : Nat}
    (owns : (handle.exchange w').Owns pipe) : ∃ place s, (place, s) ∈ handle.graph.endpoints ∧
      (.far place s, farChannel s pipe) ∈ handle.graph.channels w₁ := by
  rcases owns with ⟨o, out, rfl⟩ | ⟨s, i, out, rfl⟩
  · obtain ⟨r, stdin, rfl⟩ := Option.map_eq_some_iff.mp out
    obtain ⟨place, isEndpoint, rfl⟩ := succeeds.stdin_cases stdin
    obtain ⟨-, pipe, leads, mine⟩ := succeeds.endpoint_owned sound hosted isEndpoint
    dsimp only
    rw [mine.pipeOf?]
    exact ⟨place, _, isEndpoint, leads⟩
  · obtain ⟨r, output, rfl⟩ := Option.map_eq_some_iff.mp out
    obtain ⟨-, place, isEndpoint, rfl⟩ := succeeds.reader_cases output
    obtain ⟨-, pipe, leads, mine⟩ := succeeds.endpoint_owned sound hosted isEndpoint
    dsimp only
    rw [mine.pipeOf?]
    exact ⟨place, _, isEndpoint, leads⟩

/-- A pump that runs after the start drains a pipe that none of the caller's ends is on. -/
private theorem foreign (sound : w.Sound) (hosted : handle.graph.Hosted w) {p : Pump}
    (member : p ∈ handle.pumps) : (handle.exchange w').Foreign p := by
  intro running
  rw [← List.map_snd_zip (Nat.le_of_eq succeeds.launches.length)] at member
  obtain ⟨⟨q, _⟩, zipped, rfl⟩ := List.mem_map.mp member
  have launched := succeeds.launches.launched _ zipped
  obtain ⟨number, ⟨place, s, held⟩, isBuffer, rfl⟩ := succeeds.pump_cases (List.of_mem_zip zipped).1
  have kept : .far place s ∈ handle.graph.kept :=
    List.mem_append_left _ (List.mem_map.mpr ⟨_, isBuffer, rfl⟩)
  by_cases isStdin : s = .stdin
  · have feeds := (launched.feed (by simp [Wiring.pumpOf, Pump.make, Wiring.directionOf, isStdin])).1
    cases feeds.symm.trans running
  · have isDrain : Wiring.directionOf s = .drain := if_neg isStdin
    have same := launched.drain isDrain
    dsimp only at same
    rw [same]
    refine ⟨isDrain, _, rfl, fun pipe leads owns => ?_⟩
    obtain ⟨pipe', leads'⟩ := channel_of_kept kept w₁
    have mine := succeeds.owned sound hosted kept (fun stdin => absurd stdin isStdin) leads'
    cases mine.pipeOf?.symm.trans leads
    obtain ⟨place', s', isEndpoint, leads''⟩ := succeeds.owns_cases sound hosted owns
    have kept' : .far place' s' ∈ handle.graph.kept :=
      List.mem_append_right _ (List.mem_map.mpr ⟨_, isEndpoint, rfl⟩)
    cases eq_of_kept_pipe kept kept' leads' leads'' (pipe?_farChannel _ _) (pipe?_farChannel _ _)
    exact not_buffer_of_endpoint isEndpoint isBuffer

/-- After a start the handle owns what a call relies on. -/
theorem handle_owned (sound : w.Sound) (hosted : handle.graph.Hosted w) : handle.Owned w' where
  writer r stdin := by
    obtain ⟨place, isEndpoint, rfl⟩ := succeeds.stdin_cases stdin
    obtain ⟨-, pipe, -, mine⟩ := succeeds.endpoint_owned sound hosted isEndpoint
    exact ⟨rfl, pipe, mine⟩
  reader s r output := by
    obtain ⟨isOutput, place, isEndpoint, rfl⟩ := succeeds.reader_cases output
    obtain ⟨-, pipe, -, mine⟩ := succeeds.endpoint_owned sound hosted isEndpoint
    rw [farChannel, if_neg isOutput] at mine
    exact ⟨rfl, pipe, mine⟩
  apart r stdin s r' output same := by
    obtain ⟨place, isEndpoint, rfl⟩ := succeeds.stdin_cases stdin
    obtain ⟨isOutput, place', isEndpoint', rfl⟩ := succeeds.reader_cases output
    exact isOutput (succeeds.eq_of_pipeOf? sound hosted isEndpoint isEndpoint' same).symm
  distinct s t r r' first second same := by
    obtain ⟨-, place, isEndpoint, rfl⟩ := succeeds.reader_cases first
    obtain ⟨-, place', isEndpoint', rfl⟩ := succeeds.reader_cases second
    exact succeeds.eq_of_pipeOf? sound hosted isEndpoint isEndpoint' same
  processes _ := succeeds.exit?_isSome
  pumps _ := succeeds.foreign sound hosted
  noErrors := by rw [succeeds.handle]

end Succeeds

end Engine

end Pipework
