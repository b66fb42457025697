import Pipework.Proofs.Wiring.Holders
import Pipework.Proofs.Wiring.Regrouping

/-!
# Other numbers for the same descriptors

Two graphs may open the same descriptors, only in another order (`Graph.Carries`): what one of them makes for some
claims, the other makes for the claims that stand for them. `Graph.renumberBy` takes the number that a claim gets
in the one to the number that the claim for it gets in the other. It is injective, leaves every number alone that
the start does not hand out, and so leaves alone what the redirects name, as long as they name none that the start
hands out itself (`Graph.NamesNoNew`). Two groupings of a pipe are such graphs.
-/

namespace Pipework

/-- A descriptor under another number. Negative numbers and truth values are never handed out. -/
def Descriptor.renamed (ρ : Nat → Nat) : Descriptor → Descriptor
  | number n => if 0 ≤ n then number (ρ n.toNat) else number n
  | truth b => truth b

theorem Descriptor.renamed_number (ρ : Nat → Nat) (n : Nat) : (number n).renamed ρ = number (ρ n) := by
  simp [renamed]

/-- The same start, with other numbers for the descriptors. -/
def Event.renamed (ρ : Nat → Nat) : Event → Event
  | spawned pid args stdin stdout stderr =>
    spawned pid args (stdin.map (·.renamed ρ)) (stdout.map (·.renamed ρ)) (stderr.map (·.renamed ρ))
  | e => e

namespace Making

theorem size_map (f : Claim → Claim) (m : Making) : (m.map f).size = m.size := by cases m <;> rfl

theorem allocated_map (f : Claim → Claim) (m : Making) : (m.map f).allocated = m.allocated.map f := by
  cases m <;> rfl

/-- What is opened gets the next numbers, one after the other. -/
theorem Fit.allocated {value : Claim → Descriptor} {next : Nat} {makings : List Making}
    (fit : Fit value next makings) :
    (makings.flatMap Making.allocated).map value =
      (List.range' next (sizes makings)).map fun n : Nat => Descriptor.number n := by
  induction makings generalizing next with
  | nil => rfl
  | cons m rest ih =>
    rw [← List.singleton_append] at fit
    have later := ih fit.right
    have first := fit.left
    cases m with
    | pipe reading writing =>
      obtain ⟨isReading, isWriting⟩ := first.pipe
      have sizes : sizes (.pipe reading writing :: rest) = 2 + sizes rest := rfl
      rw [List.flatMap_cons, List.map_append, later, sizes, ← List.range'_append_1, List.map_append]
      congr 1
      simp [Making.allocated, List.range', isReading, isWriting]
    | file name mode claim =>
      have sizes : sizes (.file name mode claim :: rest) = 1 + sizes rest := rfl
      rw [List.flatMap_cons, List.map_append, later, sizes, ← List.range'_append_1, List.map_append]
      congr 1
      simp [Making.allocated, first.file]
    | given d claim =>
      have sizes : sizes (.given d claim :: rest) = 0 + sizes rest := rfl
      rw [List.flatMap_cons, List.map_append, later, sizes, Nat.zero_add]
      rfl

end Making

namespace Graph

/-- How many descriptors the start of a graph opens. -/
def size (g : Graph) : Nat := Making.sizes (Chore.makings (g.chores []))

/-- No redirect names a descriptor that the start of the graph opens itself. -/
def NamesNoNew (g : Graph) (next : Nat) : Prop :=
  ∀ d c, .given d c ∈ Chore.makings (g.chores []) → d.toInt < (next : Int) ∨ (next + g.size : Int) ≤ d.toInt

section Values

variable (g : Graph) (next : Nat)

theorem values_allocated : g.allocated.map (g.values next) =
    (List.range' next g.size).map fun n : Nat => Descriptor.number n :=
  (g.fit_values next).allocated

/-- The numbers of the claims on what is opened. -/
theorem toNat_allocated : g.allocated.map (fun c => (g.values next c).toNat) = List.range' next g.size := by
  have numbers := congrArg (List.map Descriptor.toNat) (g.values_allocated next)
  rw [List.map_map, List.map_map] at numbers
  exact numbers.trans (List.map_id _)

variable {g}

theorem value_allocated {c : Claim} (allocated : c ∈ g.allocated) :
    g.values next c = .number (g.values next c).toNat := by
  have isValue := List.mem_map_of_mem (f := g.values next) allocated
  rw [values_allocated] at isValue
  obtain ⟨n, -, same⟩ := List.mem_map.mp isValue
  rw [← same]
  rfl

theorem toNat_mem {c : Claim} (allocated : c ∈ g.allocated) :
    (g.values next c).toNat ∈ List.range' next g.size := by
  rw [← toNat_allocated]
  exact List.mem_map_of_mem (f := fun c => (g.values next c).toNat) allocated

theorem toNat_injective {a b : Claim} (first : a ∈ g.allocated) (second : b ∈ g.allocated)
    (same : (g.values next a).toNat = (g.values next b).toNat) : a = b := by
  refine eq_of_nodup_map (f := fun c => (g.values next c).toNat) ?_ first second same
  rw [toNat_allocated]
  exact List.nodup_range'

end Values

/-! ## What one start hands out, another hands out elsewhere -/

/-- What one graph makes, another makes in some order, for the claims that stand for its claims there. -/
def Carries (φ : Claim → Claim) (l r : Graph) : Prop :=
  ((Chore.makings (l.chores [])).map (Making.map φ)).Perm (Chore.makings (r.chores []))

/-- The number that the claim that stands for a claim gets in another graph, for the number that the claim gets in
this one. -/
def renumberBy (φ : Claim → Claim) (l r : Graph) (next k : Nat) : Nat :=
  match l.allocated.find? fun c => (l.values next c).toNat = k with
  | some c => (r.values next (φ c)).toNat
  | none => k

namespace Carries

variable {φ : Claim → Claim} {l r : Graph} (carries : l.Carries φ r) (next : Nat)

section
include carries

theorem allocated : (l.allocated.map φ).Perm r.allocated := by
  have perm := carries.flatMap_right Making.allocated
  rw [List.flatMap_map] at perm
  rw [Graph.allocated, Graph.allocated, List.map_flatMap]
  simpa only [Making.allocated_map] using perm

theorem size : r.size = l.size := by
  have perm := (carries.map Making.size).sum_nat
  rw [List.map_map] at perm
  rw [Graph.size, Graph.size, Making.sizes, Making.sizes, ← perm]
  simp only [Function.comp_def, Making.size_map]

theorem given {d : Descriptor} {c : Claim} (given : .given d c ∈ Chore.makings (l.chores [])) :
    .given d (φ c) ∈ Chore.makings (r.chores []) :=
  carries.subset (List.mem_map_of_mem (f := Making.map φ) given)

theorem mem_allocated {c : Claim} (allocated : c ∈ l.allocated) : φ c ∈ r.allocated :=
  carries.allocated.subset (List.mem_map_of_mem allocated)

end

theorem renumber_allocated {c : Claim} (allocated : c ∈ l.allocated) :
    l.renumberBy φ r next (l.values next c).toNat = (r.values next (φ c)).toNat := by
  have found : l.allocated.find? (fun d => (l.values next d).toNat = (l.values next c).toNat) = some c :=
    Wiring.find?_of_unique allocated (by simp) fun d known same =>
      toNat_injective next known allocated (by simpa using same)
  rw [renumberBy, found]

theorem renumber_other {k : Nat} (other : k ∉ List.range' next l.size) : l.renumberBy φ r next k = k := by
  have none : l.allocated.find? (fun d => (l.values next d).toNat = k) = none := by
    refine List.find?_eq_none.mpr fun d allocated same => other ?_
    rw [← of_decide_eq_true same]
    exact toNat_mem next allocated
  rw [renumberBy, none]

include carries

/-- What the one start hands out, the other hands out in another order. -/
theorem renumber_perm : ((List.range' next l.size).map (l.renumberBy φ r next)).Perm (List.range' next l.size) := by
  have renamed : (List.range' next l.size).map (l.renumberBy φ r next) =
      (l.allocated.map φ).map fun c => (r.values next c).toNat := by
    rw [← toNat_allocated, List.map_map, List.map_map]
    exact List.map_congr_left fun c allocated => renumber_allocated next allocated
  rw [renamed]
  refine (carries.allocated.map _).trans ?_
  rw [toNat_allocated, carries.size]

theorem renumber_injective : Function.Injective (l.renumberBy φ r next) := by
  have perm := carries.renumber_perm next
  have inside {k : Nat} (new : k ∈ List.range' next l.size) : l.renumberBy φ r next k ∈ List.range' next l.size :=
    perm.subset (List.mem_map_of_mem new)
  intro a b same
  by_cases first : a ∈ List.range' next l.size <;> by_cases second : b ∈ List.range' next l.size
  · exact eq_of_nodup_map (perm.nodup_iff.mpr List.nodup_range') first second same
  · rw [renumber_other next second] at same
    exact absurd (same ▸ inside first) second
  · rw [renumber_other next first] at same
    exact absurd (same ▸ inside second) first
  · rwa [renumber_other next first, renumber_other next second] at same

/-- What a claim gets in the one graph is what the claim that stands for it gets in the other, under another
number. -/
theorem values (names : l.NamesNoNew next) {c : Claim} (claimed : c ∈ Chore.claims (l.chores [])) :
    r.values next (φ c) = (l.values next c).renamed (l.renumberBy φ r next) := by
  obtain ⟨m, made, mine⟩ := List.mem_flatMap.mp claimed
  rcases Making.mem_claims.mp mine with opened | ⟨d, rfl⟩
  · have allocated : c ∈ l.allocated := List.mem_flatMap.mpr ⟨m, made, opened⟩
    rw [value_allocated next allocated, Descriptor.renamed_number, renumber_allocated next allocated,
      ← value_allocated next (carries.mem_allocated allocated)]
  · rw [(l.fit_values next).of_given made, (r.fit_values next).of_given (carries.given made)]
    cases d with
    | truth b => rfl
    | number n =>
      have apart : n < next ∨ next + l.size ≤ n := names _ _ made
      rw [Descriptor.renamed]
      split
      · have other : n.toNat ∉ List.range' next l.size := by
          rw [List.mem_range'_1]
          omega
        rw [renumber_other next other, Int.toNat_of_nonneg ‹_›]
      · rfl

end Carries

/-! ## Two groupings -/

/-- The number that a claim gets in another grouping, for the number that it gets in this one. -/
def renumber (l r : Graph) (next k : Nat) : Nat :=
  match l.allocated.find? fun c => (l.values next c).toNat = k with
  | some c => (r.values next c.regroup).toNat
  | none => k

namespace Regrouped

variable {l r : Graph} (regrouped : l.Regrouped r) (next : Nat)
include regrouped

theorem carries : l.Carries Claim.regroup r := regrouped.makings

theorem size : r.size = l.size := regrouped.carries.size

omit regrouped in
theorem renumber_other {k : Nat} (other : k ∉ List.range' next l.size) : l.renumber r next k = k :=
  Carries.renumber_other next other

/-- What the start hands out is handed out in another order. -/
theorem renumber_perm : ((List.range' next l.size).map (l.renumber r next)).Perm (List.range' next l.size) :=
  regrouped.carries.renumber_perm next

theorem renumber_injective : Function.Injective (l.renumber r next) := regrouped.carries.renumber_injective next

end Regrouped

end Graph

end Pipework
