import Pipework.Proofs.Custody.Handover

/-!
# Pumps that see the end of their input

A pump that drains waits for the end of its pipe. Nobody but the processes of its own start can write to that
pipe (`Succeeds.attended`), and while the handle is in use that does not change. So when these processes have
ended, the pump is done as soon as it is waited for (`Pump.Attended.exec_join`).
-/

namespace Pipework

namespace World

/-- Only some processes can write to a pipe, and each of them is the one with its number. -/
structure WrittenBy (w : World) (pids : List Nat) (pipe : Nat) : Prop where
  descriptors : ∀ x ∈ w.descriptors, x.2 ≠ .writeEnd pipe
  processes : ∀ p ∈ w.processes, .writeEnd pipe ∈ [p.stdin, p.stdout, p.stderr] → p.pid ∈ pids
  single : ∀ pid ∈ pids, (w.processes.map (·.pid)).count pid ≤ 1

variable {w w' : World} {pids : List Nat} {pipe : Nat} {events : List Event}

theorem WrittenBy.proceeds (written : w.WrittenBy pids pipe) (proceeds : w.Proceeds w' events) :
    w'.WrittenBy pids pipe where
  descriptors x member := by
    rw [proceeds.descriptors] at member
    exact written.descriptors x (List.mem_filter.mp member).1
  processes p member isStream := by
    have still : p.still ∈ w.processes.map Process.still := proceeds.still ▸ List.mem_map_of_mem member
    obtain ⟨q, known, same⟩ := List.mem_map.mp still
    rw [← Process.pid_of_still same]
    exact written.processes q known (Process.streams_of_still same ▸ isStream)
  single pid member := by
    have numbers : w'.processes.map (·.pid) = w.processes.map (·.pid) := by
      have same := congrArg (List.map Process.pid) proceeds.still
      rwa [List.map_map, List.map_map] at same
    rw [numbers]
    exact written.single pid member

private theorem find?_of_single {processes : List Process} {p : Process} (member : p ∈ processes)
    (single : (processes.map (·.pid)).count p.pid ≤ 1) : processes.find? (·.pid == p.pid) = some p := by
  induction processes with
  | nil => cases member
  | cons q rest ih =>
    rw [List.map_cons, List.count_cons] at single
    rcases List.mem_cons.mp member with rfl | later
    · simp
    · have there : 0 < (rest.map (·.pid)).count p.pid := List.count_pos_iff.mpr (List.mem_map_of_mem later)
      by_cases same : q.pid = p.pid
      · simp only [same, BEq.rfl, if_true] at single
        omega
      · rw [List.find?_cons_of_neg (by simpa using same)]
        exact ih later (by omega)

/-- When these processes have ended, nobody can write to the pipe any more. -/
theorem WrittenBy.noWriter (written : w.WrittenBy pids pipe)
    (ended : ∀ pid ∈ pids, ∃ code, w.exit? pid = some (some code)) : w.hasWriter pipe = false := by
  refine hasWriter_eq_false_iff.mpr (holders_eq_zero_iff.mpr ⟨written.descriptors, fun p member => ?_⟩)
  by_cases isStream : .writeEnd pipe ∈ [p.stdin, p.stdout, p.stderr]
  · have mine := written.processes p member isStream
    obtain ⟨code, gone⟩ := ended p.pid mine
    rw [exit?, process?, find?_of_single member (written.single _ mine)] at gone
    have isEnded : p.exit = some code := by simpa using gone
    simp [Process.holds, Process.alive, isEnded]
  · rw [Process.holds, List.count_eq_zero.mpr isStream, ite_self]

end World

/-- A pump that runs drains a pipe that only some processes can write to. -/
def Pump.Attended (pids : List Nat) (w : World) (p : Pump) : Prop :=
  p.thread = .running → ∀ r, readerOf p.pipeEnd = some r → ∀ pipe, w.pipeOf? r.descriptor = some pipe →
    w.WrittenBy pids pipe

namespace Pump.Attended

open World

variable {p : Pump} {pids : List Nat} {w w' : World} {events : List Event}

theorem proceeds (attended : p.Attended pids w) (proceeds : w.Proceeds w' events) : p.Attended pids w' := by
  intro running r ends pipe leads
  rw [proceeds.pipeOf?] at leads
  exact (attended running r ends pipe leads).proceeds proceeds

/-- All it will get is there when the processes have ended. -/
theorem inputEnded (attended : p.Attended pids w) (running : p.thread = .running)
    (ended : ∀ pid ∈ pids, ∃ code, w.exit? pid = some (some code)) : p.inputEnded w = true := by
  unfold Pump.inputEnded
  split
  · next r ends =>
    unfold Reader.atEnd
    cases leads : w.pipeOf? r.descriptor with
    | none => rfl
    | some pipe =>
      rw [Option.map_some, (attended running r ends pipe leads).noWriter ended]
      rfl
  · rfl

end Pump.Attended

/-! ## After a start -/

namespace Engine.Succeeds

open Pipework.Graph World

variable {item : Item} {values : RedirectValues} {e e' : Engine} {w w' w₁ w₂ : World}
variable {handle : Handle} {σ : Wiring} {events launching : List Event} {starts : List Start}
variable (succeeds : Succeeds item values e w handle e' w' w₁ w₂ σ events launching starts)
include succeeds

section Sound

variable (sound : w.Sound)
include sound

/-- The numbers of the processes are new, and no two are the same. -/
private theorem single {pid : Nat} (member : pid ∈ handle.pids) :
    (w₂.processes.map (·.pid)).count pid ≤ 1 := by
  have sound₁ := sound.passes succeeds.begins.passes
  have roster := succeeds.progress.roster
  have distinct := succeeds.nodup_pids
  rw [succeeds.pids_eq] at distinct member
  have notOld : pid ∉ w₁.processes.map (·.pid) := by
    intro old
    obtain ⟨p, known, rfl⟩ := List.mem_map.mp old
    have small := sound₁.pids p known
    rw [roster.pids, List.mem_range'_1] at member
    omega
  rw [roster.processes, List.map_append, List.count_append, List.count_eq_zero.mpr notOld, Nat.zero_add]
  exact Nat.le_of_eq (distinct.count.trans (if_pos member))

/-- Of an output that is kept, only processes of the start can write to the pipe. -/
theorem writtenBy {place : Place} {s : Stream} (kept : .far place s ∈ handle.graph.kept)
    (isOutput : s ≠ .stdin) {pipe : Nat} (leads : (.far place s, .readEnd pipe) ∈ handle.graph.channels w₁) :
    (w₂.shutAll (σ.childDescriptors ++ σ.files)).WrittenBy handle.pids pipe where
  descriptors := by
    obtain ⟨c, writes, given⟩ := writeEnd_of_kept kept isOutput leads
    have none := succeeds.progress.countP_descriptors (sound.passes succeeds.begins.passes) writes rfl
    rw [if_neg given, List.countP_eq_zero] at none
    exact fun x member same => none x member (by simpa using same)
  processes p member isStream := by
    have sound₁ := sound.passes succeeds.begins.passes
    rw [processes_shutAll, succeeds.progress.roster.processes] at member
    rcases List.mem_append.mp member with old | new
    · have isNew := Making.channels_range leads pipe rfl
      have := sound₁.streams p old _ isStream pipe rfl
      omega
    · rw [succeeds.pids_eq]
      exact List.mem_map_of_mem new
  single pid member := by
    rw [processes_shutAll]
    exact succeeds.single sound member

/-- The pumps of a new handle drain pipes that only its processes can write to. -/
theorem attended (spawned : (spawn item values).exec e w = (.ok handle, e', w')) {p : Pump}
    (member : p ∈ handle.pumps) : p.Attended handle.pids w' := by
  intro running r ends pipe leads
  rw [← List.map_snd_zip (Nat.le_of_eq succeeds.launches.length)] at member
  obtain ⟨⟨q, _⟩, zipped, rfl⟩ := List.mem_map.mp member
  have launched := succeeds.launches.launched _ zipped
  obtain ⟨number, ⟨place, s, held⟩, isBuffer, rfl⟩ := succeeds.pump_cases (List.of_mem_zip zipped).1
  have kept : .far place s ∈ handle.graph.kept :=
    List.mem_append_left _ (List.mem_map.mpr ⟨_, isBuffer, rfl⟩)
  by_cases isStdin : s = .stdin
  · have feeds := (launched.feed (by simp [Wiring.pumpOf, Pump.make, Wiring.directionOf, isStdin])).1
    cases feeds.symm.trans running
  · have same := launched.drain (if_neg isStdin)
    dsimp only at same
    rw [same] at ends
    cases ends
    obtain ⟨pipe', leads'⟩ := channel_of_kept kept w₁
    have here := pipeOf?_of_channel?
      (succeeds.channel?_of_kept sound kept (fun stdin => absurd stdin isStdin) leads')
    rw [pipe?_farChannel] at here
    cases here.symm.trans leads
    rw [farChannel, if_neg isStdin] at leads'
    obtain ⟨_, since⟩ := (succeeds.handed_run sound spawned).1.since (succeeds.handed_sound sound)
    exact (succeeds.writtenBy sound kept isStdin leads').proceeds since.proceeds

end Sound

end Engine.Succeeds

end Pipework
