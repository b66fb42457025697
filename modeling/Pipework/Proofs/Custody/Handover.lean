import Pipework.Proofs.Custody.Crews
import Pipework.Proofs.Engine.Ownership

/-!
# What a start hands over

When the wiring of a start is done, the far ends of its pipes go to the caller's ends and to the pumps, each
to one of them, and nothing else that the start has opened is open (`Succeeds.handed`). The pumps are started
after that, so that custody begins at this moment, and starting them is the first part of its run.
-/

namespace Pipework

namespace Engine

open Custody World Handle

/-- The moment at which the wiring is done, when the caller and the pumps get what is kept for them. -/
def handed (handle : Handle) (σ : Wiring) (w : World) : Custody := ⟨w, heldBy handle.holding σ.pumps⟩

namespace Succeeds

variable {item : Item} {values : RedirectValues} {e e' : Engine} {w w' w₁ w₂ : World}
variable {handle : Handle} {σ : Wiring} {events launching : List Event} {starts : List Start}
variable (succeeds : Succeeds item values e w handle e' w' w₁ w₂ σ events launching starts)
include succeeds

/-! ## To whom -/

/-- The caller's end of a stream is open, on the far end of the pipe for a redirect to the caller. -/
private theorem holding_iff (s : Stream) (d : Nat) : handle.holding s = some d ↔
    ∃ place, (place, s) ∈ handle.graph.endpoints ∧
      d = (handle.graph.values w₁.nextDescriptor (.far place s)).toNat := by
  have isEnd : handle.holding s = handle.endOf s := by
    cases s with
    | stdin =>
      cases stdin : handle.stdin with
      | none => simp [Handle.holding, Handle.endOf, stdin]
      | some r =>
        obtain ⟨_, -, rfl⟩ := succeeds.stdin_cases stdin
        simp [Handle.holding, Handle.endOf, stdin, Writer.holding]
    | stdout =>
      cases stdout : handle.stdout with
      | none => simp [Handle.holding, Handle.endOf, stdout]
      | some r =>
        obtain ⟨-, _, -, rfl⟩ := succeeds.reader_cases (s := .stdout) stdout
        simp [Handle.holding, Handle.endOf, stdout, Reader.holding]
    | stderr =>
      cases stderr : handle.stderr with
      | none => simp [Handle.holding, Handle.endOf, stderr]
      | some r =>
        obtain ⟨-, _, -, rfl⟩ := succeeds.reader_cases (s := .stderr) stderr
        simp [Handle.holding, Handle.endOf, stderr, Reader.holding]
  have made : handle.endOf s = σ.endOf s := by
    rw [succeeds.handle]
    cases s <;> rfl
  rw [isEnd, made]
  exact Wiring.endOf_iff succeeds.progress.served (nodup_endpoints succeeds.begins.checked) s d

/-- Each pump is on the far end of the pipe for its redirect. -/
private theorem held_pump (number d : Nat) :
    heldBy handle.holding σ.pumps (.pump number) = some d ↔ ∃ b, handle.graph.buffers[number]? = some b ∧
      d = (handle.graph.values w₁.nextDescriptor (.far b.1 b.2.1)).toNat := by
  have pumps : σ.pumps = handle.graph.buffers.mapIdx
      (Wiring.pumpOf (handle.graph.values w₁.nextDescriptor) e.settings) := succeeds.progress.served.pumps
  have made (b : Place × Stream × Item) :
      (Wiring.pumpOf (handle.graph.values w₁.nextDescriptor) e.settings number b).holding
        = some (handle.graph.values w₁.nextDescriptor (.far b.1 b.2.1)).toNat := rfl
  rw [heldBy, pumps, List.getElem?_mapIdx]
  cases handle.graph.buffers[number]? with
  | none => simp
  | some b =>
    rw [Option.map_some, Option.bind_some, made]
    simp [eq_comm]

/-- What is handed over is what the graph keeps. -/
theorem holds_iff_kept (w : World) (d : Nat) : (handed handle σ w).Holds d ↔
    d ∈ handle.graph.kept.map fun c => (handle.graph.values w₁.nextDescriptor c).toNat := by
  rw [Graph.kept, List.map_append, List.mem_append, List.map_map, List.map_map, List.mem_map, List.mem_map]
  constructor
  · rintro ⟨o, holds⟩
    cases o with
    | endpoint s =>
      obtain ⟨place, isEndpoint, same⟩ := (succeeds.holding_iff s d).mp holds
      exact .inr ⟨_, isEndpoint, same.symm⟩
    | pump number =>
      obtain ⟨b, there, same⟩ := (succeeds.held_pump number d).mp holds
      exact .inl ⟨b, List.mem_of_getElem? there, same.symm⟩
  · rintro (⟨b, isBuffer, same⟩ | ⟨⟨place, s⟩, isEndpoint, same⟩)
    · obtain ⟨number, there⟩ := List.getElem?_of_mem isBuffer
      exact ⟨.pump number, (succeeds.held_pump number d).mpr ⟨b, there, same.symm⟩⟩
    · exact ⟨.endpoint s, (succeeds.holding_iff s d).mpr ⟨place, isEndpoint, same.symm⟩⟩

/-! ## What -/

section Sound

variable (sound : w.Sound)
include sound

/-- Everything that the start has opened and not closed is handed over, and nothing else. -/
theorem holds_iff (d : Nat) : (handed handle σ (w₂.shutAll (σ.childDescriptors ++ σ.files))).Holds d ↔
    d ∈ (w₂.shutAll (σ.childDescriptors ++ σ.files)).descriptors.map (·.1) ∧
      d ∉ w.descriptors.map (·.1) := by
  have sound₁ := sound.passes succeeds.begins.passes
  obtain ⟨-, kept⟩ := succeeds.progress.exec_closeChildSide sound₁
  rw [succeeds.holds_iff_kept, (succeeds.progress.kept_perm sound₁).mem_iff,
    kept.account.map_fst_descriptors, ← succeeds.begins.passes.descriptors, List.mem_append]
  constructor
  · intro left
    exact ⟨.inr left, kept.account.fresh sound₁ d (List.mem_filter.mp left).1⟩
  · rintro ⟨old | left, new⟩
    · exact absurd old new
    · exact left

/-- No two owners get the same, and all of it is open. -/
theorem handed_sound : (handed handle σ (w₂.shutAll (σ.childDescriptors ++ σ.files))).Sound where
  isOpen o d holds := ((succeeds.holds_iff sound d).mp ⟨o, holds⟩).1
  apart o o' d holds holds' := by
    have sound₁ := sound.passes succeeds.begins.passes
    obtain ⟨-, kept⟩ := succeeds.progress.exec_closeChildSide sound₁
    have distinct := (succeeds.progress.kept_perm sound₁).nodup_iff.mpr (kept.account.nodup_opened.filter _)
    rw [Graph.kept, List.map_append, List.map_map, List.map_map, List.nodup_append] at distinct
    obtain ⟨buffers, -, others⟩ := distinct
    -- A buffer and an end of the caller are never on the same far end.
    have mixed {number : Nat} {s : Stream} (pump : heldBy handle.holding σ.pumps (.pump number) = some d)
        (endpoint : handle.holding s = some d) : False := by
      obtain ⟨b, there, same⟩ := (succeeds.held_pump number d).mp pump
      obtain ⟨place, isEndpoint, same'⟩ := (succeeds.holding_iff s d).mp endpoint
      exact others _ (List.mem_map_of_mem (List.mem_of_getElem? there)) _ (List.mem_map_of_mem isEndpoint)
        (same.symm.trans same')
    cases o with
    | endpoint s =>
      cases o' with
      | endpoint t =>
        obtain ⟨place, isEndpoint, same⟩ := (succeeds.holding_iff s d).mp holds
        obtain ⟨place', isEndpoint', same'⟩ := (succeeds.holding_iff t d).mp holds'
        have allocated {place : Place} {s : Stream} (isEndpoint : (place, s) ∈ handle.graph.endpoints) :
            .far place s ∈ handle.graph.allocated :=
          handle.graph.kept_subset _ (List.mem_append_right _ (List.mem_map.mpr ⟨_, isEndpoint, rfl⟩))
        rw [(Claim.far.inj (succeeds.progress.toNat_injective (allocated isEndpoint) (allocated isEndpoint')
          (same.symm.trans same'))).2]
      | pump number => exact (mixed holds' holds).elim
    | pump number =>
      cases o' with
      | endpoint t => exact (mixed holds holds').elim
      | pump number' =>
        obtain ⟨b, there, same⟩ := (succeeds.held_pump number d).mp holds
        obtain ⟨b', there', same'⟩ := (succeeds.held_pump number' d).mp holds'
        have inRange : number < handle.graph.buffers.length := (List.getElem?_eq_some_iff.mp there).1
        refine congrArg _ ((List.getElem?_inj (by simpa using inRange) buffers).mp ?_)
        rw [List.getElem?_map, List.getElem?_map, there, there']
        exact congrArg some (same.symm.trans same')

/-! ## Starting the pumps -/

omit sound in
/-- What the pumps are after they have been started the handle has, and the system has got a line in the log. -/
theorem eq_of_launched (spawned : (spawn item values).exec e w = (.ok handle, e', w')) {pumps : List Pump} {w₃ : World}
    (launched : Id.run ((onPumps Pump.start σ.pumps).run (w₂.shutAll (σ.childDescriptors ++ σ.files)))
      = ((.ok (), pumps), w₃)) : handle.pumps = pumps ∧ ∃ line, w' = w₃.written line := by
  obtain ⟨line, succeeded⟩ := exec_spawn_of_ok succeeds.begins succeeds.wired succeeds.fine launched
  rw [succeeded] at spawned
  simp only [Prod.mk.injEq, Except.ok.injEq] at spawned
  obtain ⟨isHandle, -, rfl⟩ := spawned
  exact ⟨(congrArg Handle.pumps isHandle).symm, line, rfl⟩

omit sound in
/-- Every pump can be started on what is handed over to it. -/
theorem suited : ∀ p ∈ σ.pumps, p.Suited := by
  intro p known
  obtain ⟨number, ⟨place, s, held⟩, -, rfl⟩ := succeeds.pump_cases known
  cases s <;> rfl

/-- Starting the pumps is the first part of the run. After it every pump is settled. -/
theorem handed_run (spawned : (spawn item values).exec e w = (.ok handle, e', w')) :
    Custody.Run (handed handle σ (w₂.shutAll (σ.childDescriptors ++ σ.files))) (handle.custody [] w') ∧
      ∀ p ∈ handle.pumps, p.Settled := by
  obtain ⟨pumps, w₃, launched, -, settled, run⟩ := Custody.Run.startAll (succeeds.handed_sound sound) [] []
    succeeds.suited (w := w₂.shutAll (σ.childDescriptors ++ σ.files))
    (by rw [List.append_nil, List.nil_append]; exact .refl)
  obtain ⟨same, line, rfl⟩ := succeeds.eq_of_launched spawned launched
  rw [List.nil_append] at run
  rw [Handle.custody, same]
  exact ⟨run.of_same rfl rfl rfl rfl rfl rfl rfl, settled⟩

/-- What is known then of the end of a process is true. -/
theorem honest (spawned : (spawn item values).exec e w = (.ok handle, e', w')) {pid : Nat}
    (member : pid ∈ handle.pids) : w'.Honest pid := by
  have sound₁ := sound.passes succeeds.begins.passes
  have roster := succeeds.progress.roster
  obtain ⟨_, since⟩ := (succeeds.handed_run sound spawned).1.since (succeeds.handed_sound sound)
  refine since.proceeds.honest pid fun code seen => ?_
  -- When the wiring is done nothing is known of any process of the start.
  rw [seen?, process?] at seen
  change ((w₂.shutAll _).processes.find? _).map _ = _ at seen
  rw [processes_shutAll, roster.processes, List.find?_append] at seen
  have isNew : ∀ p ∈ w₁.processes, p.pid ≠ pid := by
    intro p old same
    have small := sound₁.pids p old
    rw [succeeds.pids_eq, roster.pids, List.mem_range'_1] at member
    omega
  rw [List.find?_eq_none.mpr (by simpa using isNew), Option.none_or] at seen
  obtain ⟨p, found, isSeen⟩ := Option.map_eq_some_iff.mp seen
  obtain ⟨s, started, isProcess⟩ := List.mem_filterMap.mp (List.mem_of_find?_eq_some found)
  cases result : s.result with
  | error e => simp [Start.process?, result] at isProcess
  | ok q =>
    simp only [Start.process?, result, Option.some.injEq] at isProcess
    subst isProcess
    rw [(roster.streams s started q result).seen] at isSeen
    cases isSeen

end Sound

end Succeeds

end Engine

end Pipework
