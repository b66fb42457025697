import Pipework.Proofs.Wiring.Ledger
import Pipework.Proofs.Wiring.Occurrences
import Pipework.Proofs.Wiring.Roster
import Pipework.Proofs.Wiring.Served

/-!
# How far a walk has come

A walk does the chores of its graph from the first one on, up to the end or up to one that fails.
Where it stops, all invariants of wiring hold for the chores that were done. A walk that ends well
has done all of them.
-/

namespace Pipework

/-- Whether a chore can be done at all. A redirect has to make something, and a leaf to hold a
command. -/
def Chore.Possible : Chore → Prop
  | redirect place s target => (target.making? place s).isSome
  | edge _ => True
  | start leaf _ => ∃ command, leaf.commandOf = .ok command
  | refuse _ => False

theorem Chore.Effect.possible {value : Claim → Descriptor} {c : Chore} {σ σ' : Wiring}
    {w w' : World} {events : List Event} (effect : c.Effect value σ w (.ok ()) events σ' w') :
    c.Possible := by
  cases effect with
  | buffer place s held => rfl
  | endpoint place s => rfl
  | graph place s g => rfl
  | edge place => trivial
  | file place s label name append line fine => rfl
  | given place s held d given => simp [Possible, Target.making?, given]
  | started leaf above command p line isLeaf prepared => exact ⟨command, isLeaf⟩
  | notStarted leaf above command e line isLeaf refused => exact ⟨command, isLeaf⟩

/-- Chores fail at the first one that does, when those before it have been done. -/
theorem Chore.performAll_error {value : Claim → Descriptor} {chores : List Chore} {σ σ' : Wiring}
    {w w' : World} {e : Failure} (failed : (performAll value chores).exec σ w = (.error e, σ', w')) :
    ∃ done c rest σ₁ w₁, chores = done ++ c :: rest ∧
      (performAll value done).exec σ w = (.ok (), σ₁, w₁) ∧
      (c.perform value).exec σ₁ w₁ = (.error e, σ', w') := by
  induction chores generalizing σ w with
  | nil => cases failed
  | cons c rest ih =>
    rw [performAll, Owning.exec_bind] at failed
    generalize performed : (c.perform value).exec σ w = result at failed
    obtain ⟨outcome, σ₁, w₁⟩ := result
    cases outcome with
    | error e₁ =>
      cases failed
      exact ⟨[], c, rest, σ, w, rfl, rfl, performed⟩
    | ok _ =>
      obtain ⟨done, d, later, σ₂, w₂, split, before, stopped⟩ := ih failed
      refine ⟨c :: done, d, later, σ₂, w₂, by rw [split]; rfl, ?_, stopped⟩
      rw [performAll, Owning.exec_bind, performed]
      exact before

namespace Wiring

/-- The state of a walk in which some chores have been done and some starts were tried. -/
structure Progress (value : Claim → Descriptor) (settings : StartSettings) (w₀ w : World)
    (done : List Chore) (σ : Wiring) (events : List Event) (starts : List Start) : Prop where
  ledger : Ledger w₀ w σ events
  roster : Roster value settings w₀ w done σ events starts
  served : Served value settings done σ events
  possible : ∀ c ∈ done, c.Possible

namespace Progress

variable {value : Claim → Descriptor} {settings : StartSettings} {w₀ w w' : World}
    {done : List Chore}
variable {σ σ' : Wiring} {events more : List Event} {starts : List Start} {c : Chore}

theorem empty (value : Claim → Descriptor) (settings : StartSettings) (w : World)
    (sound : w.Sound) :
    Progress value settings w w [] { settings } [] [] where
  ledger := .start w sound settings
  roster := .empty value settings w
  served := .empty value settings
  possible := by simp

theorem step (progress : Progress value settings w₀ w done σ events starts)
    (fit : Making.Fit value w.nextDescriptor (Chore.makings [c]))
    (effect : c.Effect value σ w (.ok ()) more σ' w') :
    Progress value settings w₀ w' (done ++ [c]) σ' (events ++ more) (starts ++ c.tries value σ w) := by
  refine ⟨progress.ledger.step effect, progress.roster.step effect, progress.served.step fit effect,
    fun d member => ?_⟩
  rcases List.mem_append.mp member with old | new
  · exact progress.possible d old
  · rw [List.mem_singleton.mp new]
    exact effect.possible

theorem stop {e : Failure} (progress : Progress value settings w₀ w done σ events starts)
    (effect : c.Effect value σ w (.error e) more σ' w') :
    Progress value settings w₀ w' done σ' (events ++ more) starts :=
  ⟨progress.ledger.step effect, progress.roster.stop effect, progress.served.stop effect,
    progress.possible⟩

/-- Doing some chores more, up to the end or up to the first one that fails. -/
theorem performAll {chores : List Chore}
    (progress : Progress value settings w₀ w done σ events starts)
    (fit : Making.Fit value w.nextDescriptor (Chore.makings chores)) :
    ∃ now later events starts, chores = now ++ later ∧
      Progress value settings w₀ ((Chore.performAll value chores).exec σ w).2.2 (done ++ now)
        ((Chore.performAll value chores).exec σ w).2.1 events starts ∧
      (((Chore.performAll value chores).exec σ w).1 = .ok () → later = []) := by
  induction chores generalizing done σ w events starts with
  | nil =>
    refine ⟨[], [], events, starts, rfl, ?_, fun _ => rfl⟩
    rw [List.append_nil]
    exact progress
  | cons c rest ih =>
    obtain ⟨more, effect⟩ := Chore.perform_effect value c σ w
    rw [Chore.performAll, Owning.exec_bind]
    rw [← List.singleton_append, Chore.makings_append] at fit
    generalize (c.perform value).exec σ w = result at effect ⊢
    obtain ⟨outcome, σ₁, w₁⟩ := result
    cases outcome with
    | error e =>
      refine ⟨[], c :: rest, events ++ more, starts, rfl, ?_, fun same => by cases same⟩
      rw [List.append_nil]
      exact progress.stop effect
    | ok _ =>
      have next := progress.step fit.left effect
      have fitting := fit.right
      rw [← effect.next] at fitting
      obtain ⟨now, later, events, starts, split, after, finished⟩ := ih next fitting
      refine ⟨c :: now, later, events, starts, by rw [split]; rfl, ?_, finished⟩
      rw [← List.singleton_append, ← List.append_assoc]
      exact after

end Progress

/-- How far the walk of a graph comes. -/
theorem walk_progress (g : Graph) (settings : StartSettings) (w : World) (sound : w.Sound) :
    ∃ done rest events starts, g.chores [] = done ++ rest ∧
      Progress (g.values w.nextDescriptor) settings w ((walk {} g).exec { settings } w).2.2 done
        ((walk {} g).exec { settings } w).2.1 events starts ∧
      (((walk {} g).exec { settings } w).1 = .ok () → rest = []) := by
  rw [exec_walk]
  have start := Progress.empty (g.values w.nextDescriptor) settings w sound
  exact start.performAll (g.fit_values w.nextDescriptor)

/-- A walk that fails has done the chores before the one that failed. -/
theorem walk_stopped {g : Graph} {settings : StartSettings} {w w' : World} {σ : Wiring} {e : Failure}
    (sound : w.Sound) (walked : (walk {} g).exec { settings } w = (.error e, σ, w')) :
    ∃ done c rest σ₁ w₁ events starts, g.chores [] = done ++ c :: rest ∧
      (Chore.performAll (g.values w.nextDescriptor) done).exec { settings } w = (.ok (), σ₁, w₁) ∧
      (c.perform (g.values w.nextDescriptor)).exec σ₁ w₁ = (.error e, σ, w') ∧
      Progress (g.values w.nextDescriptor) settings w w' done σ events starts := by
  rw [exec_walk] at walked
  obtain ⟨done, c, rest, σ₁, w₁, split, before, failed⟩ := Chore.performAll_error walked
  have fit := g.fit_values w.nextDescriptor
  rw [split, Chore.makings_append] at fit
  obtain ⟨now, later, events, starts, same, progress, finished⟩ :=
    (Progress.empty (g.values w.nextDescriptor) settings w sound).performAll fit.left
  rw [before] at progress finished
  rw [finished rfl, List.append_nil] at same
  obtain ⟨more, effect⟩ := Chore.perform_effect (g.values w.nextDescriptor) c σ₁ w₁
  rw [failed] at effect
  exact ⟨done, c, rest, σ₁, w₁, _, starts, split, before, failed, same ▸ progress.stop effect⟩

end Wiring

end Pipework

/-!
## Nearest claims have been made

When every chore of a graph could be done, everything that a command may get its streams from was
made: the nearest claim on a stream of a leaf is among the claims of the graph.
-/

namespace Pipework

namespace Chore

/-- A chore that can be done makes what it serves. -/
theorem Serves.mem_claims {c : Chore} {k : Claim} (serves : c.Serves k)
    (possible : c.Possible) : k ∈ claims [c] := by
  cases c with
  | redirect place s t =>
    obtain ⟨m, made⟩ := Option.isSome_iff_exists.mp possible
    have claimed : claims [.redirect place s t] = m.claims := by
      rw [claims_cons, making?, made]
      simp [claims, makings]
    rw [claimed]
    rcases serves with rfl | ⟨isGraph, rfl⟩
    · rcases making?_cases made with ⟨name, mode, rfl⟩ | ⟨-, rfl⟩ | rfl | ⟨value, rfl⟩ <;>
        simp [Making.claims]
    · cases t <;> cases isGraph
      cases made
      split <;> simp [Making.claims]
  | edge place => rcases serves with rfl | rfl <;> simp [claims, makings, making?, Making.claims]
  | start leaf above => cases serves
  | refuse e => cases serves

theorem claims_of_mem {chores : List Chore} {c : Chore} (member : c ∈ chores) :
    ∀ claim ∈ claims [c], claim ∈ claims chores := by
  intro claim mine
  obtain ⟨before, after, rfl⟩ := List.append_of_mem member
  rw [claims_append, ← List.singleton_append, claims_append]
  exact List.mem_append_right _ (List.mem_append_left _ mine)

/-- A claim is made by one chore only. -/
theorem eq_of_claim {chores : List Chore} (distinct : (claims chores).Nodup) {c d : Chore} {k : Claim}
    (first : c ∈ chores) (second : d ∈ chores) (mine : k ∈ claims [c]) (other : k ∈ claims [d]) :
    c = d := by
  induction chores with
  | nil => cases first
  | cons x rest ih =>
    rw [← List.singleton_append, claims_append] at distinct
    obtain ⟨-, later, apart⟩ := List.nodup_append.mp distinct
    rcases List.mem_cons.mp first with rfl | inRest
    · rcases List.mem_cons.mp second with rfl | inRest'
      · rfl
      · exact absurd rfl (apart k mine k (claims_of_mem inRest' k other))
    · rcases List.mem_cons.mp second with rfl | inRest'
      · exact absurd rfl (apart k other k (claims_of_mem inRest k mine))
      · exact ih later inRest inRest'

/-- A node does the chores of its redirects. -/
theorem ofRedirects_subset {g : Graph} {above : Lineage} :
    ∀ c ∈ ofRedirects above.place g.redirects, c ∈ g.chores above := by
  intro c member
  cases g with
  | leaf number command r => rw [Graph.chores]; exact List.mem_append_left _ member
  | pipe number left right r => rw [Graph.chores]; exact List.mem_append_left _ member
  | group number label members r => rw [Graph.chores]; exact List.mem_append_left _ member
  | unknown number name => cases member
  | stray held => cases member

end Chore

namespace Graph

variable {g leaf : Graph} {l : Lineage} {s : Stream} {c : Claim}

/-- The nearest claim on a stream of a leaf is served by a chore of the graph. -/
theorem nearest_served (member : (leaf, l) ∈ g.occurrences) (nearest : leaf.nearest l s = some c) :
    ∃ d ∈ g.chores [], d.Serves c := by
  obtain ⟨chore, known, isLeaf⟩ := List.mem_filterMap.mp member
  cases chore <;> cases isLeaf
  obtain ⟨before, after, split⟩ := List.append_of_mem known
  have ordered : Chore.Ordered [] (g.chores []) := Chore.ordered_chores g nofun
  rw [split] at ordered
  obtain ⟨d, early, serves⟩ := ordered.provide s c nearest
  exact ⟨d, split ▸ List.mem_append_left _ early, serves⟩

/-- Where all chores of a graph can be done, the nearest claim on a stream of a leaf is a claim of
the graph. -/
theorem nearest_mem_claims (possible : ∀ c ∈ g.chores [], c.Possible) (member : (leaf, l) ∈ g.occurrences)
    (nearest : leaf.nearest l s = some c) : c ∈ Chore.claims (g.chores []) := by
  obtain ⟨d, isChore, serves⟩ := nearest_served member nearest
  exact Chore.claims_of_mem isChore _ (serves.mem_claims (possible d isChore))

end Graph

end Pipework
