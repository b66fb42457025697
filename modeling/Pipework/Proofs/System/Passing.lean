import Pipework.Proofs.System.Execution
import Pipework.Status
import Pipework.System.Calls
import Pipework.System.World

/-!
# The trace, and what can happen while nobody calls

What the events of a trace say: the descriptors that were opened and closed, the processes that were
started and signalled, and the codes that processes ended with. Statements about a stretch of execution are about
the events that it added.

`World.Passes w w' events` says all that running, watching and ending processes can do to the
system: descriptors stay as they are, processes keep what they were started with, one that ended
stays ended, and one that ends leaves exactly one event. `settle`, `poll`, `wait` and `kill` only
let the system pass. Everything later about ended and reaped processes follows from this relation.
-/

namespace Pipework

/-! ## Reading the trace -/

namespace Event

/-- The descriptors that an event opens. -/
def opens : Event → List Nat
  | pipe reading writing => [reading, writing]
  | opened _ _ descriptor => [descriptor]
  | _ => []

/-- The descriptors that an event closes. -/
def closes : Event → List Nat
  | closed descriptor => [descriptor]
  | _ => []

/-- The process that an event starts. -/
def started? : Event → Option Nat
  | spawned pid .. => some pid
  | _ => none

/-- The code with which a process ended, where an event says so. -/
def codeOf? (pid : Nat) : Event → Option Int
  | exited q code => if q = pid then some code else none
  | _ => none

/-- The process that an event sends a signal to, and the signal. -/
def signal? : Event → Option (Nat × Nat)
  | terminated pid => some (pid, Signal.terminate)
  | killed pid => some (pid, Signal.kill)
  | _ => none

/-- Whether an event belongs to the life of processes that run already. -/
def isControl : Event → Bool
  | exited .. | waited .. | killed _ | terminated _ => true
  | _ => false

/-- Whether an event is the end of a process. -/
def isExit : Event → Bool
  | exited .. => true
  | _ => false

theorem opens_of_isControl {e : Event} (control : e.isControl) : e.opens = [] := by
  cases e <;> first | rfl | cases control

theorem closes_of_isControl {e : Event} (control : e.isControl) : e.closes = [] := by
  cases e <;> first | rfl | cases control

end Event

/-- The descriptors that some events open, in order. -/
def openedBy (events : List Event) : List Nat := events.flatMap Event.opens

/-- The descriptors that some events close, in order. -/
def closedBy (events : List Event) : List Nat := events.flatMap Event.closes

/-- The processes that some events start, in order. -/
def startedBy (events : List Event) : List Nat := events.filterMap Event.started?

/-- The codes with which a process ended, in order. -/
def codesIn (pid : Nat) (events : List Event) : List Int := events.filterMap (Event.codeOf? pid)

/-- The signals that some events send, each with its process, in order. -/
def signalsIn (events : List Event) : List (Nat × Nat) := events.filterMap Event.signal?

@[simp] theorem openedBy_nil : openedBy [] = [] := rfl
@[simp] theorem closedBy_nil : closedBy [] = [] := rfl
@[simp] theorem startedBy_nil : startedBy [] = [] := rfl
@[simp] theorem codesIn_nil (pid : Nat) : codesIn pid [] = [] := rfl
@[simp] theorem signalsIn_nil : signalsIn [] = [] := rfl

@[simp] theorem openedBy_append (a b : List Event) : openedBy (a ++ b) = openedBy a ++ openedBy b :=
  List.flatMap_append

@[simp] theorem closedBy_append (a b : List Event) : closedBy (a ++ b) = closedBy a ++ closedBy b :=
  List.flatMap_append

@[simp] theorem startedBy_append (a b : List Event) :
    startedBy (a ++ b) = startedBy a ++ startedBy b :=
  List.filterMap_append

@[simp] theorem codesIn_append (pid : Nat) (a b : List Event) :
    codesIn pid (a ++ b) = codesIn pid a ++ codesIn pid b := List.filterMap_append

@[simp] theorem signalsIn_append (a b : List Event) : signalsIn (a ++ b) = signalsIn a ++ signalsIn b :=
  List.filterMap_append

section Control

variable {events : List Event} (control : ∀ e ∈ events, e.isControl)
include control

theorem openedBy_of_control : openedBy events = [] :=
  List.flatMap_eq_nil_iff.mpr fun e member => Event.opens_of_isControl (control e member)

theorem closedBy_of_control : closedBy events = [] :=
  List.flatMap_eq_nil_iff.mpr fun e member => Event.closes_of_isControl (control e member)

end Control

namespace World

@[simp] theorem events_emit (w : World) (e : Event) : (w.emit e).events = w.events ++ [e] := by
  simp [events, emit]

end World

/-! ## Passing -/

/-- A process without what changes after its start. -/
def Process.still (p : Process) : Process := { p with hasRun := false, exit := none, seen := none }

theorem Process.pid_of_still {p q : Process} (same : p.still = q.still) : p.pid = q.pid := by
  have pids : p.still.pid = q.still.pid := by rw [same]
  exact pids

theorem Process.streams_of_still {p q : Process} (same : p.still = q.still) :
    [p.stdin, p.stdout, p.stderr] = [q.stdin, q.stdout, q.stderr] := by
  have streams := congrArg (fun r : Process => [r.stdin, r.stdout, r.stderr]) same
  exact streams

namespace World

/-- How a process ended, if there is such a process; `some none` as long as it is alive. -/
def exit? (w : World) (pid : Nat) : Option (Option Int) := (w.process? pid).map (·.exit)

/-- The code of a process as its starter has seen it. -/
def seen? (w : World) (pid : Nat) : Option (Option Int) := (w.process? pid).map (·.seen)

/-- Whether a process has ended with a code, and its starter knows. -/
def IsReaped (w : World) (pid : Nat) (code : Int) : Prop :=
  w.exit? pid = some (some code) ∧ w.seen? pid = some (some code)

/-- What running, watching and ending processes can do to the system. -/
structure Passes (w w' : World) (events : List Event) : Prop where
  trace : w'.events = w.events ++ events
  control : ∀ e ∈ events, e.isControl
  descriptors : w'.descriptors = w.descriptors
  retired : w'.retired = w.retired
  nextDescriptor : w'.nextDescriptor = w.nextDescriptor
  pipes : w'.pipes.length = w.pipes.length
  openings : w'.openings.length = w.openings.length
  still : w'.processes.map Process.still = w.processes.map Process.still
  exits : ∀ pid, w'.exit? pid = w.exit? pid ∧ codesIn pid events = [] ∨
    w.exit? pid = some none ∧ ∃ code, w'.exit? pid = some (some code) ∧ codesIn pid events = [code]
  reaped : ∀ pid code, w.IsReaped pid code → w'.seen? pid = some (some code)

namespace Passes

variable {w w₁ w₂ w₃ : World} {a b : List Event}

theorem refl (w : World) : w.Passes w [] :=
  ⟨by simp, by simp, rfl, rfl, rfl, rfl, rfl, rfl, fun _ => .inl ⟨rfl, rfl⟩, fun _ _ h => h.2⟩

theorem exit_stays (h : w₁.Passes w₂ a) {pid : Nat} {code : Int}
    (ended : w₁.exit? pid = some (some code)) :
    w₂.exit? pid = some (some code) ∧ codesIn pid a = [] := by
  rcases h.exits pid with ⟨same, none⟩ | ⟨alive, _⟩
  · exact ⟨same.trans ended, none⟩
  · rw [ended] at alive
    cases alive

/-- A process that is alive has been alive before. -/
theorem alive (h : w₁.Passes w₂ a) {pid : Nat} (alive : w₂.exit? pid = some none) : w₁.exit? pid = some none := by
  rcases h.exits pid with ⟨same, -⟩ | ⟨before, -⟩
  · exact same ▸ alive
  · exact before

theorem isReaped (h : w₁.Passes w₂ a) {pid : Nat} {code : Int} (reaped : w₁.IsReaped pid code) :
    w₂.IsReaped pid code :=
  ⟨(h.exit_stays reaped.1).1, h.reaped pid code reaped⟩

theorem trans (first : w₁.Passes w₂ a) (second : w₂.Passes w₃ b) : w₁.Passes w₃ (a ++ b) where
  trace := by rw [second.trace, first.trace, List.append_assoc]
  control e member := (List.mem_append.mp member).elim (first.control e) (second.control e)
  descriptors := second.descriptors.trans first.descriptors
  retired := second.retired.trans first.retired
  nextDescriptor := second.nextDescriptor.trans first.nextDescriptor
  pipes := second.pipes.trans first.pipes
  openings := second.openings.trans first.openings
  still := second.still.trans first.still
  exits pid := by
    rcases first.exits pid with ⟨same, none⟩ | ⟨alive, code, ended, one⟩
    · rw [codesIn_append, none, List.nil_append, ← same]
      exact second.exits pid
    · have stays := second.exit_stays ended
      exact .inr ⟨alive, code, stays.1, by rw [codesIn_append, one, stays.2]; rfl⟩
  reaped pid code reaped := second.reaped pid code (first.isReaped reaped)

end Passes

/-! ## Changing one process -/

theorem process?_changeProcess (w : World) (pid q : Nat) (f : Process → Process)
    (keeps : ∀ p, (f p).pid = p.pid) :
    (w.changeProcess pid f).process? q = (w.process? q).map fun p =>
      if p.pid = pid then f p else p := by
  have same : ∀ p : Process, (if p.pid = pid then f p else p).pid = p.pid := by
    intro p
    by_cases h : p.pid = pid <;> simp [h, keeps]
  simp only [process?, changeProcess, List.find?_map, Function.comp_def, beq_iff_eq, same]

theorem pid_of_process? {w : World} {pid : Nat} {p : Process} (found : w.process? pid = some p) :
    p.pid = pid := by
  simpa using List.find?_some found

theorem still_changeProcess (w : World) (pid : Nat) (f : Process → Process)
    (keeps : ∀ p, (f p).still = p.still) :
    (w.changeProcess pid f).processes.map Process.still = w.processes.map Process.still := by
  rw [changeProcess, List.map_map]
  refine List.map_congr_left fun p _ => ?_
  by_cases h : p.pid = pid <;> simp [h, keeps]

/-- A change of one process that neither ends it nor hides a code that was seen. -/
theorem passes_changeProcess (w : World) (pid : Nat) (f : Process → Process)
    (still : ∀ p, (f p).still = p.still) (exit : ∀ p, (f p).exit = p.exit)
    (seen : ∀ p, (f p).seen = p.seen ∨ (f p).seen = p.exit) :
    w.Passes (w.changeProcess pid f) [] where
  trace := by simp [changeProcess, World.events]
  control := by simp
  descriptors := rfl
  retired := rfl
  nextDescriptor := rfl
  pipes := rfl
  openings := rfl
  still := still_changeProcess w pid f still
  exits q := by
    refine .inl ⟨?_, rfl⟩
    rw [exit?, exit?, process?_changeProcess w pid q f fun p => Process.pid_of_still (still p),
      Option.map_map]
    congr 1
    funext p
    by_cases h : p.pid = pid <;> simp [h, exit]
  reaped q code := by
    rintro ⟨ended, known⟩
    rw [seen?, process?_changeProcess w pid q f fun p => Process.pid_of_still (still p),
      Option.map_map]
    rw [exit?, Option.map_eq_some_iff] at ended
    rw [seen?, Option.map_eq_some_iff] at known
    obtain ⟨p, found, ended⟩ := ended
    obtain ⟨p', found', known⟩ := known
    rw [found] at found'
    cases found'
    rw [found, Option.map_some, Function.comp_apply]
    by_cases h : p.pid = pid
    · rcases seen p with same | same <;> simp [h, same, ended, known]
    · simp [h, known]

/-- The end of a process that is alive. -/
theorem passes_endProcess (w : World) (pid : Nat) (code : Int) (alive : w.exit? pid = some none) :
    w.Passes (w.endProcess pid code) [.exited pid code] where
  trace := by simp [endProcess, World.events, emit, changeProcess]
  control := by simp [Event.isControl]
  descriptors := rfl
  retired := rfl
  nextDescriptor := rfl
  pipes := rfl
  openings := rfl
  still := still_changeProcess w pid _ fun _ => rfl
  exits q := by
    have change := process?_changeProcess w pid q (fun p => { p with exit := some code })
        fun _ => rfl
    change ((w.changeProcess pid _).process? q).map (·.exit) = _ ∧ _ ∨
      _ ∧ ∃ c, ((w.changeProcess pid _).process? q).map (·.exit) = _ ∧ _
    rw [change]
    by_cases same : q = pid
    · subst same
      refine .inr ⟨alive, code, ?_, by simp [codesIn, Event.codeOf?]⟩
      rw [exit?, Option.map_eq_some_iff] at alive
      obtain ⟨p, found, _⟩ := alive
      simp [found, pid_of_process? found]
    · refine .inl ⟨?_, by simp [codesIn, Event.codeOf?, Ne.symm same]⟩
      cases found : w.process? q with
      | none => simp [exit?, found]
      | some p => simp [exit?, found, pid_of_process? found, same]
  reaped q c := by
    rintro ⟨ended, known⟩
    have change := process?_changeProcess w pid q (fun p => { p with exit := some code })
        fun _ => rfl
    change ((w.changeProcess pid _).process? q).map (·.seen) = _
    rw [change, Option.map_map, ← known, seen?]
    congr 1
    funext p
    by_cases h : p.pid = pid <;> simp [h]

/-! ## Steps that leave processes alone -/

/-- A change of contents, clock, memory or log alone. -/
theorem passes_of_same {w w' : World} (trace : w'.trace = w.trace)
    (descriptors : w'.descriptors = w.descriptors) (retired : w'.retired = w.retired)
    (next : w'.nextDescriptor = w.nextDescriptor)
    (pipes : w'.pipes.length = w.pipes.length) (openings : w'.openings.length = w.openings.length)
    (processes : w'.processes = w.processes) :
    w.Passes w' [] where
  trace := by simp [World.events, trace]
  control := by simp
  descriptors := descriptors
  retired := retired
  nextDescriptor := next
  pipes := pipes
  openings := openings
  still := by rw [processes]
  exits pid := .inl ⟨by simp [exit?, process?, processes], rfl⟩
  reaped pid code h := by simpa [seen?, process?, processes] using h.2

/-- An event that says what a caller does to a process. -/
theorem passes_emit (w : World) (e : Event) (control : e.isControl)
    (quiet : ∀ pid, e.codeOf? pid = none) :
    w.Passes (w.emit e) [e] where
  trace := events_emit w e
  control := by simpa using control
  descriptors := rfl
  retired := rfl
  nextDescriptor := rfl
  pipes := rfl
  openings := rfl
  still := rfl
  exits pid := .inl ⟨rfl, by simp [codesIn, quiet]⟩
  reaped _ _ h := h.2

theorem passes_putFile (w : World) (name : Text) (b : Bytes) : w.Passes (w.putFile name b) [] := by
  unfold putFile
  split <;> exact passes_of_same rfl rfl rfl rfl rfl rfl rfl

theorem passes_consume (w : World) (count : Nat) (c : Channel) :
    w.Passes (w.consume count c) [] := by
  cases c with
  | readEnd pipe => exact passes_of_same rfl rfl rfl rfl (by simp [consume, setContent]) rfl rfl
  | file k => exact passes_of_same rfl rfl rfl rfl rfl (by simp [consume]) rfl
  | hostInput => exact .refl w
  | hostOutput => exact .refl w
  | hostError => exact .refl w
  | null => exact .refl w
  | writeEnd pipe => exact .refl w

theorem passes_writeFile (w : World) (k : Nat) (data : Bytes) :
    w.Passes (w.writeFile k data) [] := by
  unfold writeFile
  split
  · exact .refl w
  · dsimp only
    split
    · exact .refl w
    · exact passes_putFile w _ _
    · exact (passes_putFile w _ _).trans (passes_of_same rfl rfl rfl rfl rfl (by simp) rfl)

theorem passes_deliver? {w w' : World} {c : Channel} {data : Bytes}
    (delivered : w.deliver? c data = some w') :
    w.Passes w' [] := by
  unfold deliver? at delivered
  split at delivered
  · cases delivered
    exact .refl w
  · split at delivered
    · cases delivered
      exact passes_of_same rfl rfl rfl rfl rfl rfl rfl
    · cases delivered
      exact passes_of_same rfl rfl rfl rfl rfl rfl rfl
    · split at delivered
      · cases delivered
        exact passes_of_same rfl rfl rfl rfl (by simp [setContent]) rfl rfl
      · cases delivered
    · cases delivered
      exact passes_writeFile w _ _
    all_goals
      cases delivered
      exact .refl w

/-! ## Running processes -/

/-- What processes do by themselves: some of them end, and nothing else shows. -/
def Runs (w w' : World) : Prop := ∃ events, w.Passes w' events ∧ ∀ e ∈ events, e.isExit

theorem Runs.refl (w : World) : w.Runs w := ⟨[], .refl w, by simp⟩

theorem Runs.trans {w₁ w₂ w₃ : World} (first : w₁.Runs w₂) (second : w₂.Runs w₃) : w₁.Runs w₃ := by
  obtain ⟨a, passes, exits⟩ := first
  obtain ⟨b, passes', exits'⟩ := second
  exact ⟨a ++ b, passes.trans passes', fun e member => (List.mem_append.mp member).elim (exits e)
    (exits' e)⟩

theorem Passes.runs {w w' : World} (passes : w.Passes w' []) : w.Runs w' := ⟨[], passes, by simp⟩

end World

end Pipework
