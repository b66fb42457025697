import Mathlib.Logic.ExistsUnique
import Pipework.Proofs.Custody.Proceeding

/-!
# Who holds which descriptor

The far ends of a start are with the ends of the handle and with the threads of the pumps. `Custody.Step`
lists all that can happen to them: processes act, an owner reads from its descriptor, writes to it or gives
it up, and an end of the handle is handed on to a new pump. Only the owner of a descriptor can use it, and
only while it is open.

`Custody.Run.since` tells what is true at every moment of such a run: nobody else becomes an owner, no
descriptor has two, and the trace shows every descriptor without an owner closed once.
-/

namespace Pipework

/-- Who can hold a descriptor: the caller by an end of the handle, or the thread of a pump, by a number. -/
inductive Owner where
  | endpoint (s : Stream)
  | pump (number : Nat)
deriving DecidableEq, Repr

/-- The system, and which descriptor each owner holds. -/
structure Custody where
  world : World
  held : Owner → Option Nat

/-- Something that concerns no pipe and no descriptor: the log, the memory, the clock, how a process stands,
or an event that tells of nothing else. -/
structure World.Aside (w w' : World) : Prop where
  proceeds : ∃ events, w.Proceeds w' events ∧ closedBy events = []
  pipes : w'.pipes = w.pipes

namespace Custody

open World

/-- An owner gives up its descriptor. -/
def close (c : Custody) (o : Owner) (d : Nat) : Custody :=
  { world := c.world.shut d, held := Function.update c.held o none }

/-- A pump takes over the descriptor of an end of the handle. -/
def handOn (c : Custody) (s : Stream) (number d : Nat) : Custody :=
  { c with held := Function.update (Function.update c.held (.pump number) (some d)) (.endpoint s) none }

/-- What can happen next. -/
inductive Step (c : Custody) : Custody → Prop where
  | acts {w : World} {entries : List (Nat × Bytes)} (acts : c.world.Acts w entries) :
    Step c { c with world := w }
  | aside {w : World} (aside : c.world.Aside w) : Step c { c with world := w }
  /-- An owner reads some of what is in the pipe of its descriptor. -/
  | read {o : Owner} {d pipe : Nat} (holds : c.held o = some d)
    (isOpen : d ∈ c.world.descriptors.map (·.1)) (leads : c.world.pipeOf? d = some pipe) (count : Nat) :
    Step c { c with world := c.world.consume count (.readEnd pipe) }
  /-- An owner writes to its descriptor. -/
  | write {o : Owner} {d : Nat} {data : Bytes} {w : World} (holds : c.held o = some d)
    (isOpen : d ∈ c.world.descriptors.map (·.1))
    (delivered : c.world.deliver? ((c.world.channel? d).getD .null) data = some w) :
    Step c { c with world := w }
  /-- An owner gives up its descriptor. -/
  | close {o : Owner} {d : Nat} (holds : c.held o = some d)
    (isOpen : d ∈ c.world.descriptors.map (·.1)) : Step c (c.close o d)
  /-- An end of the handle goes to a pump that holds nothing yet. -/
  | handOn {s : Stream} {number d : Nat} (holds : c.held (.endpoint s) = some d)
    (free : c.held (.pump number) = none) : Step c (c.handOn s number d)

/-- Any number of steps. -/
abbrev Run : Custody → Custody → Prop := Relation.ReflTransGen Step

/-- What is held is open, and no two owners hold the same. -/
structure Sound (c : Custody) : Prop where
  apart : ∀ o o' d, c.held o = some d → c.held o' = some d → o = o'
  isOpen : ∀ o d, c.held o = some d → d ∈ c.world.descriptors.map (·.1)

/-- Somebody holds a descriptor. -/
def Holds (c : Custody) (d : Nat) : Prop := ∃ o, c.held o = some d

/-- What has become, after some events, of a descriptor that had an owner: it has exactly one owner and is
open, or it has none and has been closed once. -/
def Accounted (c : Custody) (events : List Event) (d : Nat) : Prop :=
  (∃! o, c.held o = some d) ∧ d ∈ c.world.descriptors.map (·.1) ∧ d ∉ closedBy events ∨
    ¬ c.Holds d ∧ d ∉ c.world.descriptors.map (·.1) ∧ (closedBy events).count d = 1

/-- What is true of custody at every moment since an earlier one. -/
structure Since (c₀ c : Custody) (events : List Event) : Prop where
  sound : c.Sound
  proceeds : c₀.world.Proceeds c.world events
  /-- Nobody gets a descriptor from anywhere else. -/
  holds : ∀ d, c.Holds d → c₀.Holds d
  /-- An end of the handle stays what it is, or is gone. -/
  endpoint : ∀ s d, c.held (.endpoint s) = some d → c₀.held (.endpoint s) = some d
  /-- No descriptor is closed twice, and only those that had an owner are closed. -/
  once : (closedBy events).Nodup
  own : ∀ d ∈ closedBy events, c₀.Holds d
  /-- What was held is held still, or has been closed. -/
  closed : ∀ d, c₀.Holds d → (d ∈ closedBy events ↔ ¬ c.Holds d)

variable {c c₀ c' : Custody} {w w' : World} {events : List Event} {o : Owner} {d : Nat}

theorem Since.refl (sound : c.Sound) : Since c c [] where
  sound := sound
  proceeds := .refl _
  holds _ := id
  endpoint _ _ := id
  once := List.nodup_nil
  own := by simp
  closed d holds := by simp [holds]

theorem Since.accounted (since : Since c₀ c events) (holds : c₀.Holds d) : c.Accounted events d := by
  by_cases now : c.Holds d
  · obtain ⟨o, mine⟩ := now
    exact .inl ⟨⟨o, mine, fun o' other => since.sound.apart o' o d other mine⟩, since.sound.isOpen o d mine,
      fun shut => (since.closed d holds).mp shut ⟨o, mine⟩⟩
  · have shut := (since.closed d holds).mpr now
    refine .inr ⟨now, fun isOpen => ?_, since.once.count.trans (if_pos shut)⟩
    rw [since.proceeds.descriptors] at isOpen
    obtain ⟨x, known, rfl⟩ := List.mem_map.mp isOpen
    exact of_decide_eq_true (List.mem_filter.mp known).2 shut

/-- A step in which nothing changes hands and nothing is closed. -/
private theorem Since.stay (since : Since c₀ c events) {more : List Event}
    (proceeds : c.world.Proceeds w more) (closes : closedBy more = []) :
    Since c₀ { c with world := w } (events ++ more) where
  sound := by
    refine ⟨since.sound.apart, fun o d holds => ?_⟩
    have same : w.descriptors = c.world.descriptors := by
      rw [proceeds.descriptors, closes]
      exact List.filter_eq_self.mpr (by simp)
    rw [same]
    exact since.sound.isOpen o d holds
  proceeds := since.proceeds.trans proceeds
  holds := since.holds
  endpoint := since.endpoint
  once := by simpa [closes] using since.once
  own := by simpa [closes] using since.own
  closed := by
    rw [closedBy_append, closes, List.append_nil]
    exact since.closed

/-- An owner gives up its descriptor, which nobody else holds. -/
private theorem Since.close (since : Since c₀ c events) (holds : c.held o = some d) :
    Since c₀ (c.close o d) (events ++ [.closed d]) := by
  have still {o' : Owner} {d' : Nat} (now : Function.update c.held o none o' = some d') :
      c.held o' = some d' ∧ d' ≠ d := by
    by_cases same : o' = o
    · rw [same, Function.update_self] at now
      cases now
    · rw [Function.update_of_ne same] at now
      exact ⟨now, fun equal => same (since.sound.apart o' o d (equal ▸ now) holds)⟩
  have closes : closedBy (events ++ [.closed d]) = closedBy events ++ [d] := closedBy_append _ _
  have unclosed : d ∉ closedBy events := fun shut =>
    (since.closed d (since.holds d ⟨o, holds⟩)).mp shut ⟨o, holds⟩
  refine
    { sound := ⟨fun o₁ o₂ d' first second => ?_, fun o' d' now => ?_⟩
      proceeds := since.proceeds.trans (proceeds_shut _ d)
      holds := fun d' ⟨o', now⟩ => since.holds d' ⟨o', (still now).1⟩
      endpoint := fun s d' now => since.endpoint s d' (still now).1
      once := ?_
      own := fun d' shut => ?_
      closed := fun d' before => ?_ }
  · exact since.sound.apart o₁ o₂ d' (still first).1 (still second).1
  · obtain ⟨x, known, same⟩ := List.mem_map.mp (since.sound.isOpen o' d' (still now).1)
    exact List.mem_map.mpr ⟨x, List.mem_filter.mpr ⟨known, by simpa [same] using (still now).2⟩, same⟩
  · rw [closes]
    exact List.nodup_append.mpr ⟨since.once, by simp, by
      rintro x shut _ isLast rfl
      exact unclosed (List.mem_singleton.mp isLast ▸ shut)⟩
  · rw [closes, List.mem_append, List.mem_singleton] at shut
    rcases shut with earlier | rfl
    · exact since.own d' earlier
    · exact since.holds d' ⟨o, holds⟩
  · rw [closes, List.mem_append, List.mem_singleton, since.closed d' before]
    constructor
    · rintro (absent | rfl) ⟨o', now⟩
      · exact absent ⟨o', (still now).1⟩
      · exact (still now).2 rfl
    · intro absent
      by_cases same : d' = d
      · exact .inr same
      · refine .inl fun ⟨o', now⟩ => absent ⟨o', ?_⟩
        have other : o' ≠ o := fun equal => same (Option.some.inj ((equal ▸ now).symm.trans holds))
        exact (Function.update_of_ne other _ _).trans now

/-- An owner after a hand-over stands for one before it: the pump for the end, and everybody else for themselves. -/
private def formerly (s : Stream) (number : Nat) (o : Owner) : Owner :=
  if o = .pump number then .endpoint s else o

private theorem formerly_inj {s : Stream} {number : Nat} {o₁ o₂ : Owner} (notEnd₁ : o₁ ≠ .endpoint s)
    (notEnd₂ : o₂ ≠ .endpoint s) (equal : formerly s number o₁ = formerly s number o₂) : o₁ = o₂ := by
  unfold formerly at equal
  split at equal <;> split at equal
  · simp_all
  · exact absurd equal.symm notEnd₂
  · exact absurd equal notEnd₁
  · exact equal

private theorem held_of_handOn {s : Stream} {number d' : Nat} (holds : c.held (.endpoint s) = some d)
    (now : (c.handOn s number d).held o = some d') :
    o ≠ .endpoint s ∧ c.held (formerly s number o) = some d' := by
  unfold Custody.handOn at now
  dsimp only at now
  by_cases gone : o = .endpoint s
  · rw [gone, Function.update_self] at now
    cases now
  · rw [Function.update_of_ne gone] at now
    by_cases taken : o = .pump number
    · rw [taken, Function.update_self] at now
      exact ⟨gone, by simpa [formerly, taken] using holds.trans now⟩
    · rw [Function.update_of_ne taken] at now
      exact ⟨gone, by simpa [formerly, taken] using now⟩

private theorem holds_handOn_iff {s : Stream} {number d' : Nat} (holds : c.held (.endpoint s) = some d)
    (free : c.held (.pump number) = none) : (c.handOn s number d).Holds d' ↔ c.Holds d' := by
  constructor
  · rintro ⟨o, now⟩
    exact ⟨_, (held_of_handOn holds now).2⟩
  · rintro ⟨o, earlier⟩
    by_cases handed : o = .endpoint s
    · refine ⟨.pump number, ?_⟩
      rw [handed, holds] at earlier
      simpa [Custody.handOn] using earlier
    · refine ⟨o, ?_⟩
      have other : o ≠ .pump number := fun equal => by
        rw [equal, free] at earlier
        cases earlier
      simpa [Custody.handOn, handed, other] using earlier

/-- A pump takes over from an end of the handle. -/
private theorem Since.handOn (since : Since c₀ c events) {s : Stream} {number : Nat}
    (holds : c.held (.endpoint s) = some d) (free : c.held (.pump number) = none) :
    Since c₀ (c.handOn s number d) events := by
  have same (d' : Nat) : (c.handOn s number d).Holds d' ↔ c.Holds d' := holds_handOn_iff holds free
  refine
    { sound := ⟨fun o₁ o₂ d' first second => ?_, fun o' d' now => ?_⟩
      proceeds := since.proceeds
      holds := fun d' now => since.holds d' ((same d').mp now)
      endpoint := fun t d' now => ?_
      once := since.once
      own := since.own
      closed := fun d' earlier => by rw [same d']; exact since.closed d' earlier }
  · obtain ⟨notEnd₁, first⟩ := held_of_handOn holds first
    obtain ⟨notEnd₂, second⟩ := held_of_handOn holds second
    exact formerly_inj notEnd₁ notEnd₂ (since.sound.apart _ _ d' first second)
  · exact since.sound.isOpen _ d' (held_of_handOn holds now).2
  · have earlier := (held_of_handOn holds now).2
    simp only [formerly, reduceCtorEq, if_false] at earlier
    exact since.endpoint t d' earlier

/-- Every step keeps all that. -/
theorem Since.step (since : Since c₀ c events) (step : Step c c') :
    ∃ more, Since c₀ c' (events ++ more) := by
  cases step with
  | acts acts =>
    obtain ⟨more, proceeds, exits⟩ := acts.proceeds
    refine ⟨more, since.stay proceeds (closedBy_of_control fun e member => ?_)⟩
    have isExit := exits e member
    cases e <;> first | rfl | cases isExit
  | aside aside =>
    obtain ⟨more, proceeds, closes⟩ := aside.proceeds
    exact ⟨more, since.stay proceeds closes⟩
  | read holds isOpen leads count =>
    exact ⟨[], since.stay ((passes_consume _ _ _).proceeds (honest_of_same (same_of_consume _ _ _).1)) rfl⟩
  | write holds isOpen delivered =>
    exact ⟨[], since.stay ((passes_deliver? delivered).proceeds
      (honest_of_same (same_of_deliver? delivered).1)) rfl⟩
  | close holds isOpen => exact ⟨_, since.close holds⟩
  | handOn holds free =>
    refine ⟨[], ?_⟩
    rw [List.append_nil]
    exact since.handOn holds free

/-- So it is true at every moment of a run. -/
theorem Run.since (run : Run c₀ c) (sound : c₀.Sound) : ∃ events, Since c₀ c events := by
  induction run with
  | refl => exact ⟨[], .refl sound⟩
  | tail _ step ih =>
    obtain ⟨events, since⟩ := ih
    obtain ⟨more, later⟩ := since.step step
    exact ⟨events ++ more, later⟩

theorem Run.sound (run : Run c₀ c) (sound : c₀.Sound) : c.Sound := by
  obtain ⟨_, since⟩ := run.since sound
  exact since.sound

end Custody

end Pipework
