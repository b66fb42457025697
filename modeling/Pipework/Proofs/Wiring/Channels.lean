import Pipework.Proofs.Wiring.Progress

/-!
# What claims lead to

Every claim on something that is opened leads to an end of its own pipe or to its own file, and gets
a number of its own. Which channel that is can be read off the graph, as pipes and openings are
numbered in the order in which they are made.
-/

namespace Pipework

namespace Making

/-- What the claims on what is opened lead to, when the next pipe and the next opening are known. -/
def channels (pipes openings : Nat) : List Making → List (Claim × Channel)
  | [] => []
  | pipe reading writing :: rest =>
    (reading, .readEnd pipes) :: (writing, .writeEnd pipes) :: channels (pipes + 1) openings rest
  | file _ _ claim :: rest => (claim, .file openings) :: channels pipes (openings + 1) rest
  | given .. :: rest => channels pipes openings rest

theorem map_fst_channels (pipes openings : Nat) (makings : List Making) :
    (channels pipes openings makings).map (·.1) = makings.flatMap allocated := by
  induction makings generalizing pipes openings with
  | nil => rfl
  | cons m rest ih => cases m <;> simp [channels, allocated, ih]

/-- A claim is either on something that is opened or on a descriptor of the caller. -/
theorem mem_claims {m : Making} {c : Claim} :
    c ∈ m.claims ↔ c ∈ m.allocated ∨ ∃ value, m = .given value c := by
  cases m with
  | pipe reading writing => simp [claims, allocated]
  | file name mode claim => simp [claims, allocated]
  | given value claim =>
    simp only [claims, allocated, List.mem_singleton, List.not_mem_nil, false_or, given.injEq]
    constructor
    · intro same
      exact ⟨value, rfl, same.symm⟩
    · rintro ⟨_, _, same⟩
      exact same.symm

theorem sublist_claims (m : Making) : m.allocated.Sublist m.claims := by
  cases m with
  | pipe reading writing => exact .refl _
  | file name mode claim => exact .refl _
  | given value claim => exact List.nil_sublist _

/-- A pipe has only one write end, and the claims on the ends of later pipes are others. -/
theorem channels_range {pipes openings : Nat} {makings : List Making} {e : Claim × Channel}
    (member : e ∈ channels pipes openings makings) :
    ∀ pipe, e.2.pipe? = some pipe → pipes ≤ pipe := by
  intro pipe isEnd
  induction makings generalizing pipes openings with
  | nil => cases member
  | cons m rest ih =>
    cases m with
    | pipe reading writing =>
      simp only [channels, List.mem_cons] at member
      rcases member with rfl | rfl | later
      · exact Nat.le_of_eq (Option.some.inj isEnd)
      · exact Nat.le_of_eq (Option.some.inj isEnd)
      · exact Nat.le_of_succ_le (ih later)
    | file name mode claim =>
      simp only [channels, List.mem_cons] at member
      rcases member with rfl | later
      · cases isEnd
      · exact ih later
    | given value claim => exact ih member

theorem channels_openings {pipes openings : Nat} {makings : List Making} {e : Claim × Channel}
    (member : e ∈ channels pipes openings makings) :
    ∀ opening, e.2 = .file opening → openings ≤ opening := by
  intro opening isFile
  induction makings generalizing pipes openings with
  | nil => cases member
  | cons m rest ih =>
    cases m with
    | pipe reading writing =>
      simp only [channels, List.mem_cons] at member
      rcases member with rfl | rfl | later
      · cases isFile
      · cases isFile
      · exact ih later
    | file name mode claim =>
      simp only [channels, List.mem_cons] at member
      rcases member with rfl | later
      · cases isFile
        exact Nat.le_refl _
      · exact Nat.le_of_succ_le (ih later)
    | given value claim => exact ih member

/-- A claim on a write end is that of a new pipe. -/
theorem pipe_of_writeEnd {pipes openings : Nat} {makings : List Making} {c : Claim} {k : Nat}
    (member : (c, .writeEnd k) ∈ channels pipes openings makings) :
    ∃ reading, pipe reading c ∈ makings := by
  induction makings generalizing pipes openings with
  | nil => cases member
  | cons m rest ih =>
    have later {pipes openings : Nat} (member : (c, .writeEnd k) ∈ channels pipes openings rest) :
        ∃ reading, pipe reading c ∈ m :: rest := by
      obtain ⟨reading, known⟩ := ih member
      exact ⟨reading, List.mem_cons_of_mem m known⟩
    cases m with
    | pipe reading writing =>
      simp only [channels, List.mem_cons, Prod.mk.injEq, reduceCtorEq, and_false,
        false_or] at member
      rcases member with ⟨rfl, -⟩ | member
      · exact ⟨reading, List.mem_cons_self⟩
      · exact later member
    | file name mode claim =>
      simp only [channels, List.mem_cons, Prod.mk.injEq, reduceCtorEq, and_false,
        false_or] at member
      exact later member
    | given value claim => exact later member

/-- Both ends of a pipe that is made are claimed. -/
theorem channels_of_pipe {makings : List Making} {reading writing : Claim}
    (made : pipe reading writing ∈ makings) (pipes openings : Nat) :
    ∃ k, (reading, .readEnd k) ∈ channels pipes openings makings ∧
      (writing, .writeEnd k) ∈ channels pipes openings makings := by
  induction makings generalizing pipes openings with
  | nil => cases made
  | cons m rest ih =>
    rcases List.mem_cons.mp made with rfl | later
    · exact ⟨pipes, List.mem_cons_self, List.mem_cons_of_mem _ List.mem_cons_self⟩
    · cases m with
      | pipe a b =>
        obtain ⟨k, reads, writes⟩ := ih later (pipes + 1) openings
        exact ⟨k, List.mem_cons_of_mem _ (List.mem_cons_of_mem _ reads),
          List.mem_cons_of_mem _ (List.mem_cons_of_mem _ writes)⟩
      | file name mode claim =>
        obtain ⟨k, reads, writes⟩ := ih later pipes (openings + 1)
        exact ⟨k, List.mem_cons_of_mem _ reads, List.mem_cons_of_mem _ writes⟩
      | given value claim => exact ih later pipes openings

/-- Two claims on the ends of one pipe are made together. -/
theorem pipe_of_ends {pipes openings : Nat} {makings : List Making} {a b : Claim} {k : Nat}
    (reads : (a, .readEnd k) ∈ channels pipes openings makings)
    (writes : (b, .writeEnd k) ∈ channels pipes openings makings) : pipe a b ∈ makings := by
  induction makings generalizing pipes openings with
  | nil => cases reads
  | cons m rest ih =>
    cases m with
    | pipe reading writing =>
      simp only [channels, List.mem_cons, Prod.mk.injEq, reduceCtorEq, and_false, false_or,
        Channel.readEnd.injEq, Channel.writeEnd.injEq] at reads writes
      rcases reads with ⟨rfl, rfl⟩ | reads <;> rcases writes with ⟨rfl, here⟩ | writes
      · exact List.mem_cons_self
      · exact absurd (channels_range writes k rfl) (Nat.not_succ_le_self k)
      · exact absurd (channels_range reads k rfl) (here ▸ Nat.not_succ_le_self k)
      · exact List.mem_cons_of_mem _ (ih reads writes)
    | file name mode claim =>
      simp only [channels, List.mem_cons, Prod.mk.injEq, reduceCtorEq, and_false,
        false_or] at reads writes
      exact List.mem_cons_of_mem _ (ih reads writes)
    | given value claim => exact List.mem_cons_of_mem _ (ih reads writes)

/-- Different things that are opened are different channels. -/
theorem nodup_channels (pipes openings : Nat) (makings : List Making) :
    ((channels pipes openings makings).map (·.2)).Nodup := by
  induction makings generalizing pipes openings with
  | nil => exact List.nodup_nil
  | cons m rest ih =>
    cases m with
    | pipe reading writing =>
      have later {c : Channel} (isEnd : c.pipe? = some pipes) :
          c ∉ (channels (pipes + 1) openings rest).map (·.2) := by
        intro isLater
        obtain ⟨e, member, rfl⟩ := List.mem_map.mp isLater
        have := channels_range member pipes isEnd
        omega
      rw [channels, List.map_cons, List.map_cons, List.nodup_cons, List.nodup_cons]
      refine ⟨?_, later rfl, ih _ _⟩
      rw [List.mem_cons, not_or]
      exact ⟨nofun, later rfl⟩
    | file name mode claim =>
      rw [channels, List.map_cons, List.nodup_cons]
      refine ⟨fun member => ?_, ih _ _⟩
      obtain ⟨e, member, same⟩ := List.mem_map.mp member
      have := channels_openings member openings same
      omega
    | given value claim => exact ih _ _

end Making

/-- Only the events that make something matter for what is opened. -/
theorem allocatedBy_filter (pipes openings : Nat) (events : List Event) :
    allocatedBy pipes openings (events.filter Event.isMaking) =
      allocatedBy pipes openings events := by
  induction events generalizing pipes openings with
  | nil => rfl
  | cons e rest ih =>
    rw [List.filter_cons]
    cases e <;> simp [Event.isMaking, allocatedBy, ih]

/-- What the events of some makings open. -/
theorem allocatedBy_makings (value : Claim → Descriptor) (pipes openings : Nat)
    (makings : List Making) :
    allocatedBy pipes openings (makings.filterMap (Making.event? value))
      = (Making.channels pipes openings makings).map fun e => ((value e.1).toNat, e.2) := by
  induction makings generalizing pipes openings with
  | nil => rfl
  | cons m rest ih =>
    rw [List.filterMap_cons]
    cases m <;> simp [Making.event?, allocatedBy, Making.channels, ih]

/-- Where a function gives different values along a list, it is injective on the list. -/
theorem eq_of_nodup_map {α β : Type} {f : α → β} {l : List α} (distinct : (l.map f).Nodup) {a b : α}
    (first : a ∈ l) (second : b ∈ l) (same : f a = f b) : a = b := by
  induction l with
  | nil => cases first
  | cons x rest ih =>
    rw [List.map_cons, List.nodup_cons] at distinct
    rcases List.mem_cons.mp first with rfl | inRest
    · rcases List.mem_cons.mp second with rfl | other
      · rfl
      · exact absurd (same ▸ List.mem_map_of_mem other) distinct.1
    · rcases List.mem_cons.mp second with rfl | other
      · exact absurd (same ▸ List.mem_map_of_mem inRest) distinct.1
      · exact ih distinct.2 inRest other

namespace Wiring.Served

variable {value : Claim → Descriptor} {settings : StartSettings} {done : List Chore} {σ : Wiring}
variable {events : List Event} (served : Served value settings done σ events)
include served

/-- What was opened belongs to the claims. -/
theorem allocated (pipes openings : Nat) :
    allocatedBy pipes openings events
      = (Making.channels pipes openings (Chore.makings done)).map fun e => ((value e.1).toNat,
        e.2) := by
  rw [← allocatedBy_filter, served.shown, allocatedBy_makings]

/-- A claim on something opened gets a number. -/
theorem value_of_allocated {c : Claim}
    (member : c ∈ (Chore.makings done).flatMap Making.allocated) :
    ∃ d ∈ openedBy events, value c = .number d := by
  have isValue : value c ∈ ((Chore.makings done).flatMap Making.allocated).map value :=
    List.mem_map_of_mem member
  rw [← served.opened] at isValue
  obtain ⟨d, isOpened, same⟩ := List.mem_map.mp isValue
  exact ⟨d, isOpened, same.symm⟩

/-- No two claims get the same number. -/
theorem injective (distinct : (openedBy events).Nodup) {a b : Claim}
    (first : a ∈ (Chore.makings done).flatMap Making.allocated)
    (second : b ∈ (Chore.makings done).flatMap Making.allocated) (same : value a = value b) :
    a = b := by
  refine eq_of_nodup_map ?_ first second same
  rw [← served.opened]
  exact List.Pairwise.map _ (fun x y other same => other (by cases same; rfl)) distinct

end Wiring.Served

end Pipework
