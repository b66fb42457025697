import Pipework.Proofs.System.Descriptors

/-!
# Accounts of descriptors

An `Account` of a stretch of execution says that its trace tells all about the descriptors: those
that it opened are the next numbers in order, the trace shows what each of them leads to, it closed
only its own, each at most once, and whatever was open before is open still. Every call keeps the
account, so what is left open at the end of a stretch can be read off its events.
-/

namespace Pipework

/-- Whether an event makes a pipe. -/
def Event.isPipe : Event → Bool
  | pipe .. => true
  | _ => false

/-- Whether an event opens a file. -/
def Event.isOpening : Event → Bool
  | opened .. => true
  | _ => false

/-- How many pipes some events make. -/
def pipesIn (events : List Event) : Nat := events.countP Event.isPipe

/-- How many files some events open. -/
def filesIn (events : List Event) : Nat := events.countP Event.isOpening

/-- The descriptors that some events open, each with what it leads to. Pipes and openings of files
are numbered in order, after those that there are already. -/
def allocatedBy (pipes openings : Nat) : List Event → List (Nat × Channel)
  | [] => []
  | .pipe reading writing :: rest =>
    (reading, .readEnd pipes) :: (writing, .writeEnd pipes) :: allocatedBy (pipes + 1) openings rest
  | .opened _ _ descriptor :: rest =>
    (descriptor, .file openings) :: allocatedBy pipes (openings + 1) rest
  | _ :: rest => allocatedBy pipes openings rest

/-- The descriptors that some events leave open. -/
def leftOpenBy (events : List Event) : List Nat := (openedBy events).filter (· ∉ closedBy events)

/-- Some events that close and some that do nothing to descriptors. -/
theorem leftOpenBy_append (events : List Event) {more : List Event} (opens : openedBy more = []) :
    leftOpenBy (events ++ more) = (leftOpenBy events).filter (· ∉ closedBy more) := by
  rw [leftOpenBy, leftOpenBy, openedBy_append, closedBy_append, opens, List.append_nil,
    List.filter_filter]
  congr 1
  funext x
  rw [Bool.eq_iff_iff]
  simp [and_comm]

theorem leftOpenBy_closed (events : List Event) (d : Nat) :
    leftOpenBy (events ++ [.closed d]) = (leftOpenBy events).filter (· ∉ [d]) :=
      leftOpenBy_append events rfl

@[simp] theorem openedBy_map_closed (ds : List Nat) : openedBy (ds.map .closed) = [] := by
  induction ds with
  | nil => rfl
  | cons d rest ih => exact ih

@[simp] theorem closedBy_map_closed (ds : List Nat) : closedBy (ds.map .closed) = ds := by
  induction ds with
  | nil => rfl
  | cons d rest ih => exact congrArg (d :: ·) ih

@[simp] theorem codesIn_map_closed (pid : Nat) (ds : List Nat) :
    codesIn pid (ds.map .closed) = [] := by
  refine List.filterMap_eq_nil_iff.mpr fun e member => ?_
  obtain ⟨d, _, rfl⟩ := List.mem_map.mp member
  rfl

@[simp] theorem pipesIn_nil : pipesIn [] = 0 := rfl
@[simp] theorem filesIn_nil : filesIn [] = 0 := rfl

@[simp] theorem pipesIn_append (a b : List Event) : pipesIn (a ++ b) = pipesIn a + pipesIn b :=
  List.countP_append

@[simp] theorem filesIn_append (a b : List Event) : filesIn (a ++ b) = filesIn a + filesIn b :=
  List.countP_append

theorem allocatedBy_append (pipes openings : Nat) (a b : List Event) :
    allocatedBy pipes openings (a ++ b)
      = allocatedBy pipes openings a ++ allocatedBy (pipes + pipesIn a)
        (openings + filesIn a) b := by
  induction a generalizing pipes openings with
  | nil => simp [allocatedBy]
  | cons e rest ih =>
    cases e with
    | pipe reading writing =>
      have count : pipes + pipesIn (.pipe reading writing :: rest) = pipes + 1 + pipesIn rest := by
        rw [pipesIn, List.countP_cons_of_pos rfl, pipesIn]
        omega
      rw [count]
      simp [allocatedBy, ih, filesIn, Event.isOpening]
    | opened path mode descriptor =>
      have count : openings + filesIn (.opened path mode descriptor :: rest) = openings + 1 +
          filesIn rest := by
        rw [filesIn, List.countP_cons_of_pos rfl, filesIn]
        omega
      rw [count]
      simp [allocatedBy, ih, pipesIn, Event.isPipe]
    | _ => simp [allocatedBy, ih, pipesIn, filesIn, Event.isPipe, Event.isOpening]

theorem map_fst_allocatedBy (pipes openings : Nat) (events : List Event) :
    (allocatedBy pipes openings events).map (·.1) = openedBy events := by
  induction events generalizing pipes openings with
  | nil => rfl
  | cons e rest ih =>
    cases e <;> simp [allocatedBy, ih, openedBy, Event.opens]

section Quiet

variable {events : List Event} (opens : openedBy events = [])
include opens

theorem allocatedBy_of_quiet (pipes openings : Nat) : allocatedBy pipes openings events = [] := by
  have numbers := map_fst_allocatedBy pipes openings events
  rw [opens] at numbers
  exact List.map_eq_nil_iff.mp numbers

theorem pipesIn_of_quiet : pipesIn events = 0 := by
  refine List.countP_eq_zero.mpr fun e member => ?_
  have none := List.flatMap_eq_nil_iff.mp opens e member
  cases e <;> simp_all [Event.isPipe, Event.opens]

theorem filesIn_of_quiet : filesIn events = 0 := by
  refine List.countP_eq_zero.mpr fun e member => ?_
  have none := List.flatMap_eq_nil_iff.mp opens e member
  cases e <;> simp_all [Event.isOpening, Event.opens]

end Quiet

namespace World

/-- The account of the descriptors over a stretch of execution. -/
structure Account (w₀ w : World) (events : List Event) : Prop where
  trace : w.events = w₀.events ++ events
  opened : openedBy events = List.range' w₀.nextDescriptor (openedBy events).length
  next : w.nextDescriptor = w₀.nextDescriptor + (openedBy events).length
  pipes : w.pipes.length = w₀.pipes.length + pipesIn events
  openings : w.openings.length = w₀.openings.length + filesIn events
  closed : (closedBy events).Nodup
  own : ∀ d ∈ closedBy events, d ∈ openedBy events
  descriptors : w.descriptors = w₀.descriptors
    ++ (allocatedBy w₀.pipes.length w₀.openings.length events).filter (·.1 ∉ closedBy events)

/-- The system with some descriptors given up, in order. -/
def shutAll (w : World) (ds : List Nat) : World := ds.foldl shut w

namespace Account

variable {w₀ w w' : World} {events more : List Event}

theorem refl (w : World) : Account w w [] where
  trace := by simp
  opened := rfl
  next := rfl
  pipes := rfl
  openings := rfl
  closed := List.nodup_nil
  own := by simp
  descriptors := by simp [allocatedBy]

/-- The same, seen from before a stretch in which nothing shows. -/
theorem before {w₁ : World} (account : Account w₁ w events) (passes : w₀.Passes w₁ []) :
    Account w₀ w events where
  trace := by rw [account.trace, passes.trace, List.append_nil]
  opened := passes.nextDescriptor ▸ account.opened
  next := passes.nextDescriptor ▸ account.next
  pipes := passes.pipes ▸ account.pipes
  openings := passes.openings ▸ account.openings
  closed := account.closed
  own := account.own
  descriptors := by rw [account.descriptors, passes.descriptors, passes.pipes, passes.openings]

theorem nodup_opened (account : Account w₀ w events) : (openedBy events).Nodup := by
  rw [account.opened]
  exact List.nodup_range'

theorem mem_opened (account : Account w₀ w events) {d : Nat} (member : d ∈ openedBy events) :
    w₀.nextDescriptor ≤ d ∧ d < w.nextDescriptor := by
  rw [account.opened, List.mem_range'_1] at member
  rw [account.next]
  exact member

/-- A stretch that opens and closes nothing. -/
theorem quiet (account : Account w₀ w events) (trace : w'.events = w.events ++ more)
    (opens : openedBy more = []) (closes : closedBy more = [])
    (descriptors : w'.descriptors = w.descriptors) (next : w'.nextDescriptor = w.nextDescriptor)
    (pipes : w'.pipes.length = w.pipes.length) (openings : w'.openings.length = w.openings.length) :
    Account w₀ w' (events ++ more) where
  trace := by rw [trace, account.trace, List.append_assoc]
  opened := by simpa [opens] using account.opened
  next := by simpa [opens, next] using account.next
  pipes := by simpa [pipes, pipesIn_of_quiet opens] using account.pipes
  openings := by simpa [openings, filesIn_of_quiet opens] using account.openings
  closed := by simpa [closes] using account.closed
  own := by simpa [opens, closes] using account.own
  descriptors := by
    simpa [descriptors, allocatedBy_append, allocatedBy_of_quiet opens,
      closes] using account.descriptors

theorem passes (account : Account w₀ w events) (passes : w.Passes w' more) :
    Account w₀ w' (events ++ more) :=
  account.quiet passes.trace (openedBy_of_control passes.control)
    (closedBy_of_control passes.control)
    passes.descriptors passes.nextDescriptor passes.pipes passes.openings

/-- An event that opens the next descriptors. -/
theorem allocate (account : Account w₀ w events) {e : Event} (trace : w'.events = w.events ++ [e])
    (fresh : e.opens = List.range' w.nextDescriptor e.opens.length) (closes : e.closes = [])
    (next : w'.nextDescriptor = w.nextDescriptor + e.opens.length)
    (pipes : w'.pipes.length = w.pipes.length + pipesIn [e])
    (openings : w'.openings.length = w.openings.length + filesIn [e])
    (descriptors : w'.descriptors = w.descriptors ++
      allocatedBy w.pipes.length w.openings.length [e]) :
    Account w₀ w' (events ++ [e]) := by
  have opens : openedBy [e] = e.opens := by simp [openedBy]
  have shuts : closedBy [e] = [] := by simpa [closedBy] using closes
  have unclosed : ∀ d ∈ allocatedBy w.pipes.length w.openings.length [e], d.1 ∉ closedBy
      events := by
    intro d member shut
    have new : d.1 ∈ e.opens := by
      rw [← opens, ← map_fst_allocatedBy w.pipes.length w.openings.length]
      exact List.mem_map_of_mem member
    have old := account.mem_opened (account.own d.1 shut)
    rw [fresh, List.mem_range'_1] at new
    omega
  refine
    { trace := by rw [trace, account.trace, List.append_assoc]
      opened := ?_
      next := ?_
      pipes := by rw [pipes, account.pipes, pipesIn_append, Nat.add_assoc]
      openings := by rw [openings, account.openings, filesIn_append, Nat.add_assoc]
      closed := by simpa [shuts] using account.closed
      own := fun d shut => by
        rw [openedBy_append]
        exact List.mem_append_left _ (account.own d (by simpa [shuts] using shut))
      descriptors := ?_ }
  · rw [openedBy_append, opens, List.length_append, ← List.range'_append_1, ← account.opened, fresh,
      account.next, List.length_range']
  · rw [next, account.next, openedBy_append, opens, List.length_append, Nat.add_assoc]
  · have keeps := List.filter_eq_self.mpr fun d member => decide_eq_true (unclosed d member)
    rw [descriptors, account.descriptors, allocatedBy_append, closedBy_append, shuts,
      List.append_nil, List.filter_append, ← account.pipes, ← account.openings, keeps,
      List.append_assoc]

theorem addPipe (account : Account w₀ w events) :
    Account w₀ w.addPipe (events ++ [.pipe w.nextDescriptor (w.nextDescriptor + 1)]) :=
  account.allocate (events_emit _ _) rfl rfl rfl (List.length_append) rfl rfl

theorem addOpening (account : Account w₀ w events) (path : Text) (mode : FileMode) :
    Account w₀ (w.addOpening path mode) (events ++ [.opened path mode w.nextDescriptor]) :=
  account.allocate (events_emit _ _) rfl rfl rfl rfl (List.length_append) rfl

theorem shut (account : Account w₀ w events) (sound : w₀.Sound) {d : Nat}
    (left : d ∈ leftOpenBy events) :
    Account w₀ (w.shut d) (events ++ [.closed d]) := by
  have closes : closedBy [Event.closed d] = [d] := rfl
  have quiet : openedBy [Event.closed d] = [] := rfl
  obtain ⟨mine, unclosed⟩ := List.mem_filter.mp left
  have unclosed : d ∉ closedBy events := by simpa using unclosed
  have range := account.mem_opened mine
  refine
    { trace := by rw [World.shut, events_emit, ← List.append_assoc, ← account.trace]; rfl
      opened := by simpa [quiet] using account.opened
      next := by simpa [quiet, World.shut, World.emit] using account.next
      pipes := by simpa [pipesIn_of_quiet quiet, World.shut, World.emit] using account.pipes
      openings := by simpa [filesIn_of_quiet quiet, World.shut, World.emit] using account.openings
      closed := ?_
      own := ?_
      descriptors := ?_ }
  · rw [closedBy_append, closes]
    refine List.nodup_append.mpr ⟨account.closed, by simp, ?_⟩
    rintro x shut y isLast rfl
    exact unclosed (List.mem_singleton.mp isLast ▸ shut)
  · intro x shut
    rw [closedBy_append, closes, List.mem_append, List.mem_singleton] at shut
    rw [openedBy_append, quiet, List.append_nil]
    rcases shut with before | rfl
    · exact account.own x before
    · exact mine
  · have caller : ∀ x ∈ w₀.descriptors, (x.1 != d) = true := by
      intro x member
      have small := sound.descriptors x (List.mem_append_left _ member)
      have : x.1 ≠ d := by omega
      simpa using this
    change w.descriptors.filter (·.1 != d) = _
    rw [account.descriptors, List.filter_append, List.filter_eq_self.mpr caller, List.filter_filter,
      allocatedBy_append, allocatedBy_of_quiet quiet, List.append_nil, closedBy_append, closes]
    congr 2
    funext x
    rw [bne, Bool.eq_iff_iff]
    simp [and_comm]

/-- What is left open can be closed. -/
theorem isOpen (account : Account w₀ w events) {d : Nat} (left : d ∈ leftOpenBy events) :
    d ∈ w.descriptors.map (·.1) := by
  obtain ⟨mine, unclosed⟩ := List.mem_filter.mp left
  rw [← map_fst_allocatedBy w₀.pipes.length w₀.openings.length, List.mem_map] at mine
  obtain ⟨x, allocated, rfl⟩ := mine
  rw [account.descriptors, List.map_append]
  exact List.mem_append_right _ (List.mem_map_of_mem (List.mem_filter.mpr ⟨allocated, unclosed⟩))

/-- What is opened was not open before. -/
theorem fresh (account : Account w₀ w events) (sound : w₀.Sound) :
    ∀ d ∈ openedBy events, d ∉ w₀.descriptors.map (·.1) := by
  intro d opened old
  obtain ⟨x, member, rfl⟩ := List.mem_map.mp old
  have small := sound.descriptors x (List.mem_append_left _ member)
  have large := (account.mem_opened opened).1
  omega

/-- What is opened and not left open is closed exactly once. -/
theorem closed_once (account : Account w₀ w events) {d : Nat} (opened : d ∈ openedBy events)
    (notLeft : d ∉ leftOpenBy events) : (closedBy events).count d = 1 := by
  have shut : d ∈ closedBy events :=
    Decidable.not_not.mp fun absent => notLeft (List.mem_filter.mpr ⟨opened, decide_eq_true absent⟩)
  exact account.closed.count.trans (if_pos shut)

/-- The descriptors that are open: those from before, and what is left open. -/
theorem map_fst_descriptors (account : Account w₀ w events) :
    w.descriptors.map (·.1) = w₀.descriptors.map (·.1) ++ leftOpenBy events := by
  have left : ((allocatedBy w₀.pipes.length w₀.openings.length events).filter
      (·.1 ∉ closedBy events)).map (·.1)
      = leftOpenBy events := by
    rw [leftOpenBy, ← map_fst_allocatedBy w₀.pipes.length w₀.openings.length, List.filter_map]
    rfl
  rw [account.descriptors, List.map_append, left]

/-- When everything is closed, what was open before is what is open now. -/
theorem restored (account : Account w₀ w events) (none : leftOpenBy events = []) :
    w.descriptors = w₀.descriptors := by
  have gone : (allocatedBy w₀.pipes.length w₀.openings.length events).filter
      (·.1 ∉ closedBy events) = [] := by
    refine List.filter_eq_nil_iff.mpr fun x allocated => ?_
    have mine : x.1 ∈ openedBy events := by
      rw [← map_fst_allocatedBy w₀.pipes.length w₀.openings.length]
      exact List.mem_map_of_mem allocated
    exact List.filter_eq_nil_iff.mp none x.1 mine
  rw [account.descriptors, gone, List.append_nil]

/-- Closing some of the descriptors that are left open, one after the other. -/
theorem shutAll (account : Account w₀ w events) (sound : w₀.Sound) {ds : List Nat}
    (distinct : ds.Nodup) (left : ∀ d ∈ ds, d ∈ leftOpenBy events) :
    Account w₀ (w.shutAll ds) (events ++ ds.map .closed) := by
  induction ds generalizing w events with
  | nil => simpa [World.shutAll] using account
  | cons d rest ih =>
    rw [List.nodup_cons] at distinct
    have first := account.shut sound (left d List.mem_cons_self)
    have later : ∀ x ∈ rest, x ∈ leftOpenBy (events ++ [.closed d]) := by
      intro x member
      rw [leftOpenBy_closed, List.mem_filter]
      have other : x ≠ d := fun same => distinct.1 (same ▸ member)
      exact ⟨left x (List.mem_cons_of_mem _ member), by simpa using other⟩
    have all := ih first distinct.2 later
    rw [List.append_assoc] at all
    exact all

end Account

end World

end Pipework
