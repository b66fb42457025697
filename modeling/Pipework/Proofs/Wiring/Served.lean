import Pipework.Proofs.System.Accounts
import Pipework.Proofs.Wiring.Walk

/-!
# What the redirects get

Every redirect and every pipe node is served once, in order: the trace shows the pipe or the file
that was made for it, and the claims get its descriptors. For a buffer, the far end of the pipe goes
to a pump of the same number; for an end for the caller, it goes to the caller.
-/

namespace Pipework

/-- The number of a descriptor that the system handed out. -/
def Descriptor.toNat (d : Descriptor) : Nat := d.toInt.toNat

@[simp] theorem Descriptor.toNat_number (n : Nat) : (Descriptor.number n).toNat = n := rfl

/-- Whether an event makes a pipe or opens a file. -/
def Event.isMaking : Event → Bool
  | pipe .. | opened .. => true
  | _ => false

/-- Events that open nothing make nothing. -/
theorem filter_isMaking {events : List Event} (opens : openedBy events = []) :
    events.filter Event.isMaking = [] := by
  refine List.filter_eq_nil_iff.mpr fun e member => ?_
  have none := List.flatMap_eq_nil_iff.mp opens e member
  cases e <;> simp_all [Event.isMaking, Event.opens]

/-- The event that shows what is made. -/
def Making.event? (value : Claim → Descriptor) : Making → Option Event
  | pipe reading writing => some (.pipe (value reading).toNat (value writing).toNat)
  | file name mode claim => some (.opened name mode (value claim).toNat)
  | given .. => none

/-- The claims on descriptors that are opened. -/
def Making.allocated : Making → List Claim
  | pipe reading writing => [reading, writing]
  | file _ _ claim => [claim]
  | given .. => []

/-- The buffer that a chore serves, with the redirect that leads to it. -/
def Chore.buffer? : Chore → Option (Place × Stream × Item)
  | redirect place s (.buffer held) => some (place, s, held)
  | _ => none

/-- The redirect for which a chore makes an end for the caller. -/
def Chore.endpoint? : Chore → Option (Place × Stream)
  | redirect place s .endpoint => some (place, s)
  | _ => none

/-- The redirects of a graph that lead to buffers, in the order of the chores. -/
def Graph.buffers (g : Graph) : List (Place × Stream × Item) :=
  (g.chores []).filterMap Chore.buffer?

/-- The redirects of a graph that lead to the caller, in the order of the chores. -/
def Graph.endpoints (g : Graph) : List (Place × Stream) := (g.chores []).filterMap Chore.endpoint?

namespace Wiring

/-- The pump of a redirect to a buffer, on the far end of its pipe. -/
def pumpOf (value : Claim → Descriptor) (settings : StartSettings) (number : Nat) :
    Place × Stream × Item → Pump
  | (place, s, held) =>
    Pump.make (directionOf s) (.descriptor (value (.far place s)).toNat) held.it.toBuffer
      (s.text ++ Text.ofNat number) settings.logger settings.pumps

/-- The end that the caller gets for a redirect, which is the far end of its pipe. -/
def endpointOf (value : Claim → Descriptor) : Place × Stream → Stream × Endpoint
  | (place, s) => (s, newEndpoint s (value (.far place s)).toNat)

/-- What is true of the makings, the pumps and the ends for the caller when some chores have been
done. -/
structure Served (value : Claim → Descriptor) (settings : StartSettings) (done : List Chore)
    (σ : Wiring) (events : List Event) : Prop where
  unchanged : σ.settings = settings
  shown : events.filter Event.isMaking = (Chore.makings done).filterMap (Making.event? value)
  opened : (openedBy events).map (fun n : Nat => Descriptor.number n)
    = ((Chore.makings done).flatMap Making.allocated).map value
  pumps : σ.pumps = (done.filterMap Chore.buffer?).mapIdx (pumpOf value settings)
  endpoints : σ.endpoints = (done.filterMap Chore.endpoint?).map (endpointOf value)

namespace Served

open Chore

variable {value : Claim → Descriptor} {settings : StartSettings} {done : List Chore}
variable {σ σ' : Wiring} {w w' : World} {events more : List Event}

theorem empty (value : Claim → Descriptor) (settings : StartSettings) :
    Served value settings [] { settings } [] where
  unchanged := rfl
  shown := rfl
  opened := rfl
  pumps := rfl
  endpoints := rfl

/-- What is shown when one more chore is done. -/
private theorem extend (served : Served value settings done σ events) {c : Chore}
    (same : σ'.settings = σ.settings) (shown : more.filter Event.isMaking =
      (c.making?.bind (Making.event? value)).toList)
    (opened : (openedBy more).map (fun n : Nat => Descriptor.number n)
      = (c.making?.toList.flatMap Making.allocated).map value)
    (pumps : σ'.pumps = σ.pumps ++ (c.buffer?.map (pumpOf value settings σ.pumps.length)).toList)
    (endpoints : σ'.endpoints = σ.endpoints ++ (c.endpoint?.map (endpointOf value)).toList) :
    Served value settings (done ++ [c]) σ' (events ++ more) where
  unchanged := same.trans served.unchanged
  shown := by
    rw [List.filter_append, served.shown, shown, makings_append, List.filterMap_append]
    cases made : c.making? with
    | none => simp [makings, made]
    | some m => cases event : m.event? value <;> simp [makings, made, event]
  opened := by
    rw [openedBy_append, List.map_append, served.opened, opened, makings_append,
      List.flatMap_append, List.map_append]
    cases made : c.making? <;> simp [makings, made]
  pumps := by
    rw [pumps, List.filterMap_append]
    cases found : c.buffer? with
    | none => simp [found, served.pumps]
    | some b => simp [found, served.pumps]
  endpoints := by
    rw [endpoints, served.endpoints, List.filterMap_append, List.map_append]
    cases found : c.endpoint? <;> simp [found]

/-- A chore that makes a pipe. -/
private theorem piped (served : Served value settings done σ events) {c : Chore}
    {reading writing : Claim} (made : c.making? = some (.pipe reading writing))
    (fit : Making.Fit value w.nextDescriptor (makings [c]))
    (same : σ'.settings = σ.settings)
    (pumps : σ'.pumps = σ.pumps ++ (c.buffer?.map (pumpOf value settings σ.pumps.length)).toList)
    (endpoints : σ'.endpoints = σ.endpoints ++ (c.endpoint?.map (endpointOf value)).toList) :
    Served value settings (done ++ [c]) σ'
      (events ++ [.pipe w.nextDescriptor (w.nextDescriptor + 1)]) := by
  have single : makings [c] = [.pipe reading writing] := by simp [makings, made]
  rw [single] at fit
  obtain ⟨first, second⟩ := fit.pipe
  refine served.extend same ?_ ?_ pumps endpoints
  · rw [made, Option.bind_some, Making.event?, first, second]
    rfl
  · simp [made, Making.allocated, openedBy, Event.opens, first, second]

/-- What a redirect that needs a pipe makes. -/
private theorem making?_pipe (place : Place) (s : Stream) {t : Target}
    (pipe : t.making? place s = some
      (if s = .stdin then .pipe (.near place s) (.far place s)
        else .pipe (.far place s) (.near place s))) :
    ∃ reading writing, (Chore.redirect place s t).making? = some (.pipe reading writing) := by
  rw [making?, pipe]
  cases s <;> exact ⟨_, _, rfl⟩

theorem step {c : Chore} (served : Served value settings done σ events)
    (fit : Making.Fit value w.nextDescriptor (makings [c]))
    (effect : c.Effect value σ w (.ok ()) more σ' w') :
    Served value settings (done ++ [c]) σ' (events ++ more) := by
  cases effect with
  | buffer place s held =>
    obtain ⟨reading, writing, made⟩ := making?_pipe (t := .buffer held) place s rfl
    refine served.piped made fit rfl ?_ (List.append_nil _).symm
    have ends := ends_of_fit (t := .buffer held) fit rfl
    simp only [nextPump, buffer?, Option.map_some, Option.toList_some, pumpOf, ends.2,
      Descriptor.toNat_number, served.unchanged]
  | endpoint place s =>
    obtain ⟨reading, writing, made⟩ := making?_pipe (t := .endpoint) place s rfl
    refine served.piped made fit rfl (List.append_nil _).symm ?_
    have ends := ends_of_fit (t := .endpoint) fit rfl
    simp only [endpoint?, Option.map_some, Option.toList_some, endpointOf, ends.2,
      Descriptor.toNat_number]
  | graph place s g =>
    obtain ⟨reading, writing, made⟩ := making?_pipe (t := .graph g) place s rfl
    exact served.piped made fit rfl (List.append_nil _).symm (List.append_nil _).symm
  | edge place => exact served.piped rfl fit rfl (List.append_nil _).symm (List.append_nil _).symm
  | file place s label name append line fine =>
    have gets : value (.near place s) = .number w.nextDescriptor := fit.file
    refine served.extend rfl ?_ ?_ (List.append_nil _).symm (List.append_nil _).symm
    · simp [making?, Target.making?, Making.event?, Event.isMaking, gets]
    · simp [making?, Target.making?, Making.allocated, openedBy, Event.opens, gets]
  | given place s held d given =>
    refine served.extend rfl ?_ ?_ (List.append_nil _).symm (List.append_nil _).symm
    · simp [making?, Target.making?, given, Making.event?]
    · simp [making?, Target.making?, given, Making.allocated]
  | started leaf above command p line isLeaf prepared =>
    exact served.extend rfl rfl rfl (List.append_nil _).symm (List.append_nil _).symm
  | notStarted leaf above command e line isLeaf refused =>
    exact served.extend rfl rfl rfl (List.append_nil _).symm (List.append_nil _).symm

theorem stop {c : Chore} {e : Failure} (served : Served value settings done σ events)
    (effect : c.Effect value σ w (.error e) more σ' w') :
    Served value settings done σ' (events ++ more) := by
  have same (shown : more.filter Event.isMaking = []) (opened : openedBy more = []) :
      Served value settings done σ (events ++ more) :=
    { unchanged := served.unchanged
      shown := by rw [List.filter_append, shown, List.append_nil, served.shown]
      opened := by rw [openedBy_append, opened, List.append_nil, served.opened]
      pumps := served.pumps
      endpoints := served.endpoints }
  cases effect with
  | fileRefused place s label name append e refused => exact same rfl rfl
  | stuck c e => exact same rfl rfl

end Served

end Wiring

end Pipework
