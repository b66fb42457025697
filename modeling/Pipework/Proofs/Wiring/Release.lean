import Pipework.Proofs.System.Processes
import Pipework.Proofs.Wiring.Ledger

/-!
# Releasing a wiring

Closing the side of the commands, and giving a wiring up: every process that was started is ended
and awaited, and every descriptor that is still held is closed. Each part is an equation or says
exactly which events it leaves.
-/

namespace Pipework

namespace World

variable {w₀ w : World} {events : List Event}

theorem shutAll_append (w : World) (a b : List Nat) :
    w.shutAll (a ++ b) = (w.shutAll a).shutAll b := List.foldl_append

@[simp] theorem processes_shutAll (w : World) (ds : List Nat) :
    (w.shutAll ds).processes = w.processes := by
  induction ds generalizing w with
  | nil => rfl
  | cons d rest ih => exact ih (w.shut d)

@[simp] theorem pipes_shutAll (w : World) (ds : List Nat) : (w.shutAll ds).pipes = w.pipes := by
  induction ds generalizing w with
  | nil => rfl
  | cons d rest ih => exact ih (w.shut d)

theorem Sound.shutAll (sound : w.Sound) (ds : List Nat) : (w.shutAll ds).Sound := by
  induction ds generalizing w with
  | nil => exact sound
  | cons d rest ih => exact ih (sound.shut d)

end World

namespace Wiring

open World

section Closing

variable {w₀ w : World} {events : List Event} (account : w₀.Account w events) (sound : w₀.Sound)
include account sound

/-- Closing things one after the other, each of which stands for a descriptor that is left open. -/
private theorem exec_closing {α : Type} (close : α → Sim Unit) (closeEach : List α → Sim Unit)
    (number : α → Nat) (nil : closeEach [] = pure ())
    (cons : ∀ x rest, closeEach (x :: rest) = do close x; closeEach rest)
    {xs : List α} (one : ∀ x ∈ xs, ∀ w : World, number x ∈ w.descriptors.map (·.1) →
      (close x).exec w = (.ok (), w.shut (number x)))
    (distinct : (xs.map number).Nodup) (left : ∀ d ∈ xs.map number, d ∈ leftOpenBy events) :
    (closeEach xs).exec w = (.ok (), w.shutAll (xs.map number)) := by
  induction xs generalizing w events with
  | nil =>
    rw [nil]
    rfl
  | cons x rest ih =>
    rw [List.map_cons, List.nodup_cons] at distinct
    have here := left (number x) List.mem_cons_self
    have later : ∀ d ∈ rest.map number, d ∈ leftOpenBy (events ++ [.closed (number x)]) := by
      intro d member
      rw [leftOpenBy_closed, List.mem_filter]
      have other : d ≠ number x := fun same => distinct.1 (same ▸ member)
      exact ⟨left d (List.mem_cons_of_mem _ member), by simpa using other⟩
    rw [cons, Sim.exec_bind, one x List.mem_cons_self w (account.isOpen here)]
    exact ih (account.shut sound here) (fun y member => one y (List.mem_cons_of_mem _ member))
      distinct.2 later

theorem exec_closeAll {ds : List Nat} (distinct : ds.Nodup)
    (left : ∀ d ∈ ds, d ∈ leftOpenBy events) :
    (closeAll ds).exec w = (.ok (), w.shutAll ds) := by
  rw [← List.map_id ds] at distinct left
  have all := exec_closing account sound Sim.close closeAll id rfl (fun _ _ => rfl)
    (fun d _ w isOpen => Sim.exec_close isOpen) distinct left
  rwa [List.map_id] at all

theorem exec_closeChildSide {σ : Wiring} (distinct : (σ.childDescriptors ++ σ.files).Nodup)
    (left : ∀ d ∈ σ.childDescriptors ++ σ.files, d ∈ leftOpenBy events) :
    closeChildSide.exec σ w
      = (.ok (), { σ with childDescriptors := [], files := [] },
        w.shutAll (σ.childDescriptors ++ σ.files)) := by
  obtain ⟨distinctFirst, distinctLater, apart⟩ := List.nodup_append.mp distinct
  have leftFirst : ∀ d ∈ σ.childDescriptors, d ∈ leftOpenBy events := fun d member =>
    left d (List.mem_append_left _ member)
  have leftLater : ∀ d ∈ σ.files, d ∈ leftOpenBy (events ++ σ.childDescriptors.map .closed) := by
    intro d member
    rw [leftOpenBy_append _ (openedBy_map_closed _), closedBy_map_closed, List.mem_filter]
    have other : d ∉ σ.childDescriptors := fun early => apart d early d member rfl
    exact ⟨left d (List.mem_append_right _ member), by simpa using other⟩
  have first := exec_closeAll account sound distinctFirst leftFirst
  have later := exec_closeAll (account.shutAll sound distinctFirst leftFirst) sound distinctLater
      leftLater
  simp only [closeChildSide, Owning.exec_bind, Owning.exec_own, Owning.exec_change,
    Owning.exec_lift, first, later, shutAll_append]

end Closing

/-- A new end for the caller holds nothing back, so closing it only closes its descriptor. -/
private theorem exec_closeEndpoint {w : World} {s : Stream} {d : Nat}
    (isOpen : d ∈ w.descriptors.map (·.1)) :
    (closeEndpoint (newEndpoint s d)).exec w = (.ok (), w.shut d) := by
  have writer : Writer.close.exec ⟨d, [], false⟩ w = (.ok (), ⟨d, [], true⟩, w.shut d) := by
    simp [Writer.close, Writer.passOn, Owning.exec_bind, Sim.exec_close isOpen]
  have reader : Reader.close.exec ⟨d, false⟩ w = (.ok (), ⟨d, true⟩, w.shut d) := by
    simp [Reader.close, Owning.exec_bind, Sim.exec_close isOpen]
  unfold newEndpoint
  split
  · simp [closeEndpoint, Sim.exec_bind, writer]
  · simp [closeEndpoint, Pump.closeReader, Sim.exec_bind, reader]

/-- A pump that never started only gives up the descriptor of its end. -/
private theorem exec_closePump {w : World} {p : Pump} (fresh : p.IsFresh)
    (isOpen : p.descriptors.headD 0 ∈ w.descriptors.map (·.1)) :
    (do
      let (outcome, _) ← Pump.close.runOn p
      Sim.ofExcept outcome : Sim Unit).exec w = (.ok (), w.shut (p.descriptors.headD 0)) := by
  obtain ⟨unstarted, d, isDescriptor⟩ := fresh
  have number : p.descriptors.headD 0 = d := by rw [Pump.descriptors, isDescriptor]; rfl
  rw [number] at isOpen ⊢
  have closed : (Pump.close.exec p w).1 = .ok () ∧ (Pump.close.exec p w).2.2 = w.shut d := by
    simp [Pump.close, Owning.exec_bind, unstarted, isDescriptor, Sim.exec_close isOpen]
  simp [Sim.exec_bind, closed]

private theorem flatMap_descriptors {pumps : List Pump} (fresh : ∀ p ∈ pumps, p.IsFresh) :
    pumps.flatMap Pump.descriptors = pumps.map fun p => p.descriptors.headD 0 := by
  induction pumps with
  | nil => rfl
  | cons p rest ih =>
    obtain ⟨_, d, isDescriptor⟩ := fresh p List.mem_cons_self
    rw [List.flatMap_cons, List.map_cons, ih fun q member =>
      fresh q (List.mem_cons_of_mem _ member), Pump.descriptors, isDescriptor]
    rfl

section Giving

variable {w₀ w : World} {events : List Event} (account : w₀.Account w events) (sound : w₀.Sound)
include account sound

theorem exec_closeEndpoints {endpoints : List (Stream × Endpoint)}
    (fresh : ∀ e ∈ endpoints, ∃ s d, e.2 = newEndpoint s d)
    (distinct : (endpoints.map (·.2.descriptor)).Nodup)
    (left : ∀ d ∈ endpoints.map (·.2.descriptor), d ∈ leftOpenBy events) :
    (closeEndpoints endpoints).exec w = (.ok (), w.shutAll (endpoints.map (·.2.descriptor))) := by
  refine exec_closing account sound (fun e => closeEndpoint e.2) closeEndpoints
    (·.2.descriptor) rfl (fun _ _ => rfl) (fun e member w isOpen => ?_) distinct left
  obtain ⟨s, d, same⟩ := fresh e member
  rw [same, descriptor_newEndpoint] at isOpen ⊢
  exact exec_closeEndpoint isOpen

theorem exec_closePumps {pumps : List Pump} (fresh : ∀ p ∈ pumps, p.IsFresh)
    (distinct : (pumps.flatMap Pump.descriptors).Nodup)
    (left : ∀ d ∈ pumps.flatMap Pump.descriptors, d ∈ leftOpenBy events) :
    (closePumps pumps).exec w = (.ok (), w.shutAll (pumps.flatMap Pump.descriptors)) := by
  rw [flatMap_descriptors fresh] at distinct left ⊢
  exact exec_closing account sound (fun p => do
      let (outcome, _) ← Pump.close.runOn p
      Sim.ofExcept outcome) closePumps _ rfl (fun _ _ => by simp [closePumps])
    (fun p member _ isOpen => exec_closePump (fresh p member) isOpen) distinct left

end Giving

end Wiring

end Pipework
