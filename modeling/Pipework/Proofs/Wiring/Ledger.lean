import Pipework.Proofs.System.Accounts
import Pipework.Proofs.Wiring.Steps

/-!
# The ledger of a wiring

While a graph is being started, every descriptor that was opened stands in exactly one of the four
lists of the wiring: with the commands, with the files, with a pump or with an end for the caller.
Nothing is closed before the walk is over. The invariant holds after every chore, done or not.
-/

namespace Pipework

/-- Whether an event is one of starting a graph. -/
def Event.isWiring : Event → Bool
  | pipe .. | opened .. | openFailed .. | spawned .. | spawnFailed .. => true
  | _ => false

theorem Event.closes_of_isWiring {e : Event} (wiring : e.isWiring) : e.closes = [] := by
  cases e <;> first | rfl | cases wiring

theorem closedBy_of_wiring {events : List Event} (wiring : ∀ e ∈ events, e.isWiring) :
    closedBy events = [] :=
  List.flatMap_eq_nil_iff.mpr fun e member => Event.closes_of_isWiring (wiring e member)

theorem codesIn_of_wiring {events : List Event} (wiring : ∀ e ∈ events, e.isWiring) (pid : Nat) :
    codesIn pid events = [] := by
  refine List.filterMap_eq_nil_iff.mpr fun e member => ?_
  have isWiring := wiring e member
  cases e <;> first | rfl | cases isWiring

/-- The descriptors that a pump holds. -/
def Pump.descriptors (p : Pump) : List Nat :=
  match p.pipeEnd with
  | .gone => []
  | .descriptor n => [n]
  | .reader r => [r.descriptor]
  | .writer w => [w.descriptor]

/-- A pump that has not started and holds its end as a descriptor. -/
def Pump.IsFresh (p : Pump) : Prop := p.thread = .unstarted ∧ ∃ d, p.pipeEnd = .descriptor d

/-- The descriptor of an end for the caller. -/
def Endpoint.descriptor : Endpoint → Nat
  | writer w => w.descriptor
  | reader r => r.descriptor

namespace Wiring

/-- Every descriptor that a wiring keeps account of. -/
def held (σ : Wiring) : List Nat :=
  σ.childDescriptors ++ σ.files ++ σ.endpoints.map (·.2.descriptor) ++
    σ.pumps.flatMap Pump.descriptors

@[simp] theorem descriptors_nextPump (σ : Wiring) (s : Stream) (d : Nat) (content : Buffer) :
    (σ.nextPump s d content).descriptors = [d] := rfl

@[simp] theorem descriptor_newEndpoint (s : Stream) (d : Nat) :
    (newEndpoint s d).descriptor = d := by
  cases s <;> rfl

/-- What is true of the descriptors at every moment of a walk. -/
structure Ledger (w₀ w : World) (σ : Wiring) (events : List Event) : Prop where
  account : w₀.Account w events
  wiring : ∀ e ∈ events, e.isWiring
  held : σ.held.Perm (openedBy events)
  sound : w.Sound

/-- The two ends of a new pipe, handed out in some order. -/
private theorem ends_perm (w : World) (s : Stream) :
    [w.nearEnd s, w.farEnd s].Perm [w.nextDescriptor, w.nextDescriptor + 1] := by
  cases s with
  | stdin => exact .refl _
  | stdout => exact .swap _ _ _
  | stderr => exact .swap _ _ _

namespace Ledger

variable {w₀ w w' : World} {σ σ' : Wiring} {events more : List Event}

theorem start (w : World) (sound : w.Sound) (settings : StartSettings) :
    Ledger w w { settings } [] where
  account := .refl w
  wiring := by simp
  held := .refl _
  sound := sound

/-- A step that opens something and hands all of it out. -/
private theorem extend (ledger : Ledger w₀ w σ events) (account : w₀.Account w' (events ++ more))
    (wiring : ∀ e ∈ more, e.isWiring) (held : σ'.held.Perm (σ.held ++ openedBy more))
    (sound : w'.Sound) :
    Ledger w₀ w' σ' (events ++ more) where
  account := account
  wiring e member := (List.mem_append.mp member).elim (ledger.wiring e) (wiring e)
  held := by
    rw [openedBy_append]
    exact held.trans (ledger.held.append_right _)
  sound := sound

private theorem piped (ledger : Ledger w₀ w σ events)
    (held : σ'.held.Perm (σ.held ++ [w.nextDescriptor, w.nextDescriptor + 1])) :
    Ledger w₀ w.addPipe σ' (events ++ [.pipe w.nextDescriptor (w.nextDescriptor + 1)]) :=
  ledger.extend ledger.account.addPipe (by simp [Event.isWiring]) held ledger.sound.addPipe

/-- An event that opens and closes nothing, and lines in the log. -/
private theorem noted (ledger : Ledger w₀ w σ events) {e : Event}
    (trace : w'.events = w.events ++ [e]) (wiring : e.isWiring) (opens : e.opens = [])
    (descriptors : w'.descriptors = w.descriptors)
    (next : w'.nextDescriptor = w.nextDescriptor) (pipes : w'.pipes = w.pipes)
    (openings : w'.openings = w.openings) (held : σ'.held = σ.held) (sound : w'.Sound) :
    Ledger w₀ w' σ' (events ++ [e]) := by
  have quiet : openedBy [e] = [] := by simp [openedBy, opens]
  have lasting : closedBy [e] = [] := by simp [closedBy, Event.closes_of_isWiring wiring]
  refine ledger.extend ?_ (by simpa using wiring) ?_ sound
  · exact ledger.account.quiet trace quiet lasting descriptors next (by rw [pipes])
      (by rw [openings])
  · rw [held, quiet, List.append_nil]

private theorem written (ledger : Ledger w₀ w σ events) (line : LogLine) :
    Ledger w₀ (w.written line) σ events := by
  have account := ledger.account.passes (w.passes_written line)
  rw [List.append_nil] at account
  exact ⟨account, ledger.wiring, ledger.held, ledger.sound.passes (w.passes_written line)⟩

theorem step {value : Claim → Descriptor} {c : Chore} {outcome : Except Failure Unit}
    (ledger : Ledger w₀ w σ events) (effect : c.Effect value σ w outcome more σ' w') :
    Ledger w₀ w' σ' (events ++ more) := by
  cases effect with
  | buffer place s held =>
    refine ledger.piped (List.perm_iff_count.mpr fun d => ?_)
    have ends := List.perm_iff_count.mp (ends_perm w s) d
    simp only [Wiring.held, give, List.flatMap_append, List.flatMap_singleton, descriptors_nextPump,
      List.count_append, List.count_cons, List.count_nil] at ends ⊢
    omega
  | endpoint place s =>
    refine ledger.piped (List.perm_iff_count.mpr fun d => ?_)
    have ends := List.perm_iff_count.mp (ends_perm w s) d
    simp only [Wiring.held, give, List.map_append, List.map_cons, List.map_nil,
      descriptor_newEndpoint, List.count_append, List.count_cons, List.count_nil] at ends ⊢
    omega
  | graph place s g =>
    refine ledger.piped (List.perm_iff_count.mpr fun d => ?_)
    simp only [Wiring.held, give, List.count_append]
    omega
  | edge place =>
    refine ledger.piped (List.perm_iff_count.mpr fun d => ?_)
    simp only [Wiring.held, give, List.count_append]
    omega
  | file place s label name append line fine =>
    have ready := World.passes_readyFile w name (fileMode s append)
    have account := ledger.account.passes ready
    rw [List.append_nil] at account
    have opened := account.addOpening name (fileMode s append)
    rw [ready.nextDescriptor] at opened
    refine written (ledger.extend opened (by simp [Event.isWiring]) ?_ ?_) line
    · refine List.perm_iff_count.mpr fun d => ?_
      simp only [Wiring.held, openedBy, Event.opens, List.flatMap_cons, List.flatMap_nil,
        List.count_append, List.count_nil]
      omega
    · exact (ledger.sound.passes ready).addOpening name (fileMode s append)
  | fileRefused place s label name append e refused =>
    exact ledger.noted (World.events_emit _ _) rfl rfl rfl rfl rfl rfl rfl (ledger.sound.emitted _)
  | given place s held d given =>
    rw [List.append_nil]
    exact ledger
  | started leaf above command p line isLeaf prepared =>
    obtain ⟨pid, started⟩ := Sim.prepare_ok prepared
    have added :
        Ledger w₀ (w.addProcess p (σ.requestOf command
          (Chore.contextOf value (leaf.nearest above))))
        { σ with processes := σ.processes ++ [(command, p.pid)] } (events ++ [_]) :=
      ledger.noted (World.events_emit _ _) rfl rfl rfl rfl rfl rfl rfl
        (ledger.sound.addProcess pid started)
    exact added.written line
  | notStarted leaf above command e line isLeaf refused =>
    have noted : Ledger w₀ (w.emit (.spawnFailed command.args e.symbol))
        { σ with failures := σ.failures ++ [⟨.command command, SpawnReason.ofError e, e⟩] }
          (events ++ [_]) :=
      ledger.noted (World.events_emit _ _) rfl rfl rfl rfl rfl rfl rfl (ledger.sound.emitted _)
    exact noted.written line
  | stuck c e =>
    rw [List.append_nil]
    exact ledger

end Ledger

end Wiring

end Pipework
