import Pipework.Proofs.Wiring.Gaining
import Pipework.Proofs.Wiring.Renaming

/-!
# The same chores in another order

`Graph.Rearranged` says what two graphs have in common whose chores are the same but for their places and their order,
where the commands come up in one order. They make the same, ask for the same ends and serve the same buffers, and
start the same commands, on streams that claims decide which stand for each other.
-/

namespace Pipework

theorem Target.making?_bare (t : Target) (place : Place) (s : Stream) : t.bare.making? place s = t.making? place s := by
  cases t with
  | file path append =>
    obtain ⟨label, value⟩ := path
    cases value <;> rfl
  | _ => rfl

namespace Chore

/-- The same chore, where claims stand for others. Targets may differ in labels. -/
inductive Carried (φ : Claim → Claim) : Chore → Chore → Prop
  | redirect {place place' : Place} {s : Stream} {t t' : Target} (target : t'.bare = t.bare)
      (near : φ (.near place s) = .near place' s) (far : φ (.far place s) = .far place' s) :
    Carried φ (.redirect place s t) (.redirect place' s t')
  | edge {place place' : Place} (reading : φ (.reading place) = .reading place')
      (writing : φ (.writing place) = .writing place') : Carried φ (.edge place) (.edge place')
  | start {leaf leaf' : Graph} {l l' : Lineage} (command : leaf'.commandOf = leaf.commandOf)
      (nearest : ∀ t, leaf'.nearest l' t = (leaf.nearest l t).map φ) : Carried φ (.start leaf l) (.start leaf' l')
  | refuse (e : BuildError) : Carried φ (.refuse e) (.refuse e)

/-- What a chore keeps for a pump: the stream, the claim on the far end of its pipe, and what is moved. -/
def charge? : Chore → Option (Stream × Claim × Value)
  | redirect place s (.buffer held) => some (s, .far place s, held.it)
  | _ => none

/-- What a chore keeps for the caller: the stream, and the claim on the far end of its pipe. -/
def request? : Chore → Option (Stream × Claim)
  | redirect place s .endpoint => some (s, .far place s)
  | _ => none

private theorem kept_bare (place : Place) (s : Stream) (t : Target) :
    (redirect place s t.bare).charge? = (redirect place s t).charge? ∧
      (redirect place s t.bare).request? = (redirect place s t).request? := by
  cases t <;> exact ⟨rfl, rfl⟩

namespace Carried

variable {φ : Claim → Claim} {c c' : Chore} {chores chores' : List Chore}

theorem same (c : Chore) : c.Carried id c := by
  cases c with
  | redirect place s t => exact .redirect rfl rfl rfl
  | edge place => exact .edge rfl rfl
  | start leaf l => exact .start rfl fun t => by rw [Option.map_id_fun, id]
  | refuse e => exact .refuse e

theorem making? (carried : c.Carried φ c') : c'.making? = c.making?.map (Making.map φ) := by
  cases carried with
  | @redirect place place' s t t' target near far =>
    rw [Chore.making?, Chore.making?, ← t.making?_bare, ← t'.making?_bare, target]
    cases t.bare with
    | file path append =>
      obtain ⟨label, value⟩ := path
      cases value <;> simp [Target.making?, Making.map, near]
    | buffer held | graph g | endpoint => cases s <;> simp [Target.making?, Making.map, near, far]
    | stream held => simp [Target.making?, Function.comp_def, Making.map, near]
    | unknown name | stray held => rfl
  | edge reading writing => simp [Chore.making?, Making.map, reading, writing]
  | start | refuse => rfl

theorem charge? (carried : c.Carried φ c') : c'.charge? = c.charge?.map fun x => (x.1, φ x.2.1, x.2.2) := by
  cases carried with
  | @redirect place place' s t t' target near far =>
    rw [← (kept_bare place s t).1, ← (kept_bare place' s t').1, target]
    cases t.bare <;> simp [Chore.charge?, far]
  | edge | start | refuse => rfl

theorem request? (carried : c.Carried φ c') : c'.request? = c.request?.map fun x => (x.1, φ x.2) := by
  cases carried with
  | @redirect place place' s t t' target near far =>
    rw [← (kept_bare place s t).2, ← (kept_bare place' s t').2, target]
    cases t.bare <;> simp [Chore.request?, far]
  | edge | start | refuse => rfl

/-- What is read off chores one by one is read off the same chores elsewhere. -/
theorem filterMap {α : Type} {f : Chore → Option α} {move : α → α} (carried : List.Forall₂ (Carried φ) chores chores')
    (moved : ∀ c c', c.Carried φ c' → f c' = (f c).map move) :
    chores'.filterMap f = (chores.filterMap f).map move := by
  induction carried with
  | nil => rfl
  | cons first rest ih =>
    rw [List.map_filterMap] at ih ⊢
    rw [List.filterMap_cons, List.filterMap_cons, moved _ _ first, ih]

end Carried

end Chore

namespace Graph

/-- Two graphs with the same chores, but for their places and their order. The commands are in the same order. -/
structure Rearranged (φ : Claim → Claim) (l r : Graph) : Prop where
  chores : ∃ chores, List.Forall₂ (Chore.Carried φ) (l.chores []) chores ∧ chores.Perm (r.chores []) ∧
    chores.filterMap Chore.leaf? = r.occurrences

namespace Rearranged

theorem same (g : Graph) : g.Rearranged id g :=
  ⟨g.chores [], List.forall₂_same.mpr fun c _ => .same c, .refl _, rfl⟩

variable {φ : Claim → Claim} {l r : Graph} (rearranged : l.Rearranged φ r)
include rearranged

/-- What is read off the chores one by one is the same, but for the order. -/
theorem filterMap {α : Type} {f : Chore → Option α} {move : α → α}
    (moved : ∀ c c', c.Carried φ c' → f c' = (f c).map move) :
    (((l.chores []).filterMap f).map move).Perm ((r.chores []).filterMap f) := by
  obtain ⟨chores, carried, perm, -⟩ := rearranged.chores
  rw [← Chore.Carried.filterMap carried moved]
  exact perm.filterMap f

theorem carries : l.Carries φ r := rearranged.filterMap fun _ _ => Chore.Carried.making?

/-- The same commands come up in the same order, and each of their streams is decided by the claim that stands for
the one that decided it. -/
theorem occurrences : List.Forall₂ (fun o o' : Graph × Lineage => o'.1.commandOf = o.1.commandOf ∧
    ∀ s, o'.1.nearest o'.2 s = (o.1.nearest o.2 s).map φ) l.occurrences r.occurrences := by
  obtain ⟨chores, carried, -, same⟩ := rearranged.chores
  rw [Graph.occurrences, ← same]
  refine List.rel_filterMap (fun c c' carried => ?_) carried
  cases carried with
  | start command nearest => exact .some ⟨command, nearest⟩
  | _ => exact .none

end Rearranged

end Graph

end Pipework
