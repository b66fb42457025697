import Pipework.Proofs.Graph.Joined
import Pipework.Proofs.Graph.Nodes
import Pipework.Wording

/-!
# Building succeeds or refuses

A step of building either has a result, and has then drawn numbers upwards, or it refuses with an error
that the caller sees as a build error. `Building.Yields` says both at once, and it is put together like
the steps are. `Building.Settles` says besides on what condition there is a result. Whether the ends of a
graph are free, and whether no node stands twice in some graphs, is asked of graphs that are made of nodes
only.
-/

namespace Pipework

/-- The caller sees it as a build error, and not as a slip of his own about some value. -/
def BuildError.IsRefusal (e : BuildError) : Prop := ∀ m, ∃ text, e.failure m = .build e text

namespace Building

variable {α β : Type} {n : Nat}

/-- From a number on, a step of building has a result, for which numbers may have been drawn, or refuses. -/
def Yields (x : Building α) (n : Nat) (result : α → Nat → Prop) : Prop :=
  match x.run n with
  | .ok (a, n') => n ≤ n' ∧ result a n'
  | .error e => e.IsRefusal

namespace Yields

variable {x : Building α} {f : α → Building β} {result : α → Nat → Prop} {outcome : β → Nat → Prop}

theorem ok (yields : x.Yields n result) {a : α} {n' : Nat} (ran : x.run n = .ok (a, n')) :
    n ≤ n' ∧ result a n' := by
  rw [Yields, ran] at yields
  exact yields

theorem error (yields : x.Yields n result) {e : BuildError} (ran : x.run n = .error e) : e.IsRefusal := by
  rw [Yields, ran] at yields
  exact yields

theorem pure {a : α} (holds : result a n) : (Pure.pure a : Building α).Yields n result :=
  ⟨Nat.le_refl n, holds⟩

theorem throw {e : BuildError} (refusal : e.IsRefusal) : (MonadExcept.throw e : Building α).Yields n result :=
  refusal

theorem bind (first : x.Yields n result)
    (second : ∀ a m, n ≤ m → result a m → (f a).Yields m outcome) : (x >>= f).Yields n outcome := by
  unfold Yields at *
  rw [StateT.run_bind]
  cases ran : x.run n with
  | error e =>
    rw [ran] at first
    exact first
  | ok done =>
    obtain ⟨a, m⟩ := done
    rw [ran] at first
    have next := second a m first.1 first.2
    change match (f a).run m with
      | .ok (b, n') => n ≤ n' ∧ outcome b n'
      | .error e => e.IsRefusal
    cases rest : (f a).run m with
    | error e =>
      rw [rest] at next
      exact next
    | ok done =>
      rw [rest] at next
      exact ⟨Nat.le_trans first.1 next.1, next.2⟩

theorem mono (yields : x.Yields n result) {weaker : α → Nat → Prop}
    (implies : ∀ a n', n ≤ n' → result a n' → weaker a n') : x.Yields n weaker := by
  unfold Yields at *
  cases ran : x.run n with
  | error e =>
    rw [ran] at yields
    exact yields
  | ok done =>
    rw [ran] at yields
    exact ⟨yields.1, implies _ _ yields.1 yields.2⟩

theorem lift_ok {a : α} {made : Except BuildError α} (isOk : made = .ok a) (holds : result a n) :
    (liftM made : Building α).Yields n result := by
  rw [isOk]
  exact ⟨Nat.le_refl n, holds⟩

theorem lift_error {e : BuildError} {made : Except BuildError α} (isError : made = .error e)
    (refusal : e.IsRefusal) : (liftM made : Building α).Yields n result := by
  rw [isError]
  exact refusal

theorem freshNumber : Building.freshNumber.Yields n fun k n' => k = n ∧ n' = n + 1 :=
  ⟨Nat.le_succ n, rfl, rfl⟩

theorem freshLabel : Building.freshLabel.Yields n fun _ _ => True := ⟨Nat.le_succ n, trivial⟩

/-- What comes after a check only comes if there was nothing to refuse. -/
theorem check {taken : Bool} {e : BuildError} {next : Unit → Building β} (refusal : e.IsRefusal)
    (rest : taken = false → (next ()).Yields n outcome) :
    (if taken then do
        let r ← MonadExcept.throw e
        next r
      else next () : Building β).Yields n outcome := by
  cases taken with
  | true => exact .throw refusal
  | false => exact rest rfl

end Yields

section Settles

variable {accepted accepted' : Prop}

/-- From a number on, a step of building has a result exactly if a condition holds, and refuses otherwise. -/
def Settles (x : Building α) (n : Nat) (accepted : Prop) (result : α → Nat → Prop) : Prop :=
  match x.run n with
  | .ok (a, n') => n ≤ n' ∧ accepted ∧ result a n'
  | .error e => ¬accepted ∧ e.IsRefusal

namespace Settles

variable {x : Building α} {f : α → Building β} {result weaker : α → Nat → Prop} {outcome : β → Nat → Prop}

theorem pure {a : α} (holds : result a n) : (Pure.pure a : Building α).Settles n True result :=
  ⟨Nat.le_refl n, trivial, holds⟩

theorem ok (settles : x.Settles n accepted result) {a : α} {n' : Nat} (ran : x.run n = .ok (a, n')) :
    accepted ∧ result a n' := by
  rw [Settles, ran] at settles
  exact settles.2

theorem error (settles : x.Settles n accepted result) {e : BuildError} (ran : x.run n = .error e) :
    ¬accepted ∧ e.IsRefusal := by
  rw [Settles, ran] at settles
  exact settles

theorem bind (first : x.Settles n accepted result)
    (second : ∀ a m, n ≤ m → accepted → result a m → (f a).Settles m accepted' outcome) :
    (x >>= f).Settles n (accepted ∧ accepted') outcome := by
  unfold Settles at *
  rw [StateT.run_bind]
  cases ran : x.run n with
  | error e =>
    rw [ran] at first
    exact ⟨fun both => first.1 both.1, first.2⟩
  | ok done =>
    obtain ⟨a, m⟩ := done
    rw [ran] at first
    obtain ⟨later, holds, isResult⟩ := first
    have next := second a m later holds isResult
    change match (f a).run m with
      | .ok (b, n') => n ≤ n' ∧ (accepted ∧ accepted') ∧ outcome b n'
      | .error e => ¬(accepted ∧ accepted') ∧ e.IsRefusal
    cases rest : (f a).run m with
    | error e =>
      rw [rest] at next
      exact ⟨fun both => next.1 both.2, next.2⟩
    | ok done =>
      rw [rest] at next
      exact ⟨Nat.le_trans later next.1, ⟨holds, next.2.1⟩, next.2.2⟩

theorem mono (settles : x.Settles n accepted result) (same : accepted ↔ accepted')
    (implies : ∀ a n', n ≤ n' → accepted → result a n' → weaker a n') : x.Settles n accepted' weaker := by
  unfold Settles at *
  cases ran : x.run n with
  | error e =>
    rw [ran] at settles
    exact ⟨fun holds => settles.1 (same.mpr holds), settles.2⟩
  | ok done =>
    rw [ran] at settles
    exact ⟨settles.1, same.mp settles.2.1, implies _ _ settles.1 settles.2.1 settles.2.2⟩

/-- What two steps ask for, said in other words. -/
theorem bind_iff {whole : Prop} (first : x.Settles n accepted result) (same : accepted ∧ accepted' ↔ whole)
    (second : ∀ a m, n ≤ m → accepted → result a m → (f a).Settles m accepted' outcome) :
    (x >>= f).Settles n whole outcome :=
  (first.bind second).mono same fun _ _ _ _ made => made

/-- After a step that is always accepted the rest decides. -/
theorem bind_of_true (first : x.Settles n True result)
    (second : ∀ a m, n ≤ m → result a m → (f a).Settles m accepted' outcome) : (x >>= f).Settles n accepted' outcome :=
  first.bind_iff (.of_eq (true_and _)) fun a m later _ => second a m later

/-- A result that is used for another. -/
theorem map {g : α → β} (settles : x.Settles n accepted result)
    (implies : ∀ a n', n ≤ n' → accepted → result a n' → outcome (g a) n') :
    (do return g (← x)).Settles n accepted outcome := by
  have whole : (do return g (← x)).Settles n (accepted ∧ True) outcome :=
    settles.bind fun a m later holds isResult => .pure (implies a m later holds isResult)
  exact whole.mono (Iff.of_eq (and_true accepted)) fun _ _ _ _ made => made

end Settles

end Settles

end Building

/-! ## Graphs that are made of nodes only -/

namespace Graph

/-- No other value stands in the place of a node. -/
def Whole (g : Graph) : Prop := ∀ a ∈ g.nodes, a.stray? = none

theorem stray_mem_of_strayAt? {g : Graph} {s : Stream} {held : Item} (found : g.strayAt? s = some held) :
    .stray held ∈ g.nodes := by
  induction g using Graph.induction with
  | pipe number left right r inLeft inRight attached =>
    unfold strayAt? at found
    split at found
    · cases found
    · refine List.mem_cons_of_mem _ (List.mem_append_left _ ?_)
      cases s with
      | stdin => exact List.mem_append_left _ (inLeft found)
      | stdout => exact List.mem_append_right _ (inRight found)
      | stderr => cases found
  | stray other =>
    cases found
    exact List.mem_singleton_self _
  | _ => cases found

/-- Of a graph that is made of nodes only it can be said whether a stream is taken. -/
theorem isTaken_of_whole {g : Graph} (whole : g.Whole) (s : Stream) :
    g.isTaken s = .ok (g.boundary s).isSome := by
  unfold isTaken
  split
  · next held found => cases whole _ (stray_mem_of_strayAt? found)
  · rfl

theorem scanNodes_cons {g : Graph} (isNode : g.stray? = none) (seen : List Nat) (rest : List Graph) :
    scanNodes seen (g :: rest) =
      if g.number ∈ seen then .error (.repeatedNode g) else scanNodes (g.number :: seen) rest := by
  cases g with
  | stray held => cases isNode
  | _ => simp [scanNodes]

section Scan

variable {nodes : List Graph} (whole : ∀ a ∈ nodes, a.stray? = none) {seen : List Nat}
include whole

theorem scanNodes_of_apart (distinct : (nodes.map number).Nodup) (new : ∀ a ∈ nodes, a.number ∉ seen) :
    scanNodes seen nodes = .ok () := by
  induction nodes generalizing seen with
  | nil => rfl
  | cons g rest ih =>
    rw [List.map_cons, List.nodup_cons] at distinct
    rw [scanNodes_cons (whole g List.mem_cons_self), if_neg (new g List.mem_cons_self)]
    refine ih (fun a member => whole a (List.mem_cons_of_mem _ member)) distinct.2 fun a member before => ?_
    rcases List.mem_cons.mp before with same | before
    · exact distinct.1 (same ▸ List.mem_map_of_mem member)
    · exact new a (List.mem_cons_of_mem _ member) before

theorem apart_of_scanNodes (scanned : scanNodes seen nodes = .ok ()) :
    (nodes.map number).Nodup ∧ ∀ a ∈ nodes, a.number ∉ seen := by
  induction nodes generalizing seen with
  | nil => exact ⟨List.nodup_nil, nofun⟩
  | cons g rest ih =>
    rw [scanNodes_cons (whole g List.mem_cons_self)] at scanned
    split at scanned
    · cases scanned
    next notSeen =>
    obtain ⟨distinct, new⟩ := ih (fun a member => whole a (List.mem_cons_of_mem _ member)) scanned
    refine ⟨List.nodup_cons.mpr ⟨fun member => ?_, distinct⟩, fun a member => ?_⟩
    · obtain ⟨a, inRest, same⟩ := List.mem_map.mp member
      exact new a inRest (same ▸ List.mem_cons_self)
    · rcases List.mem_cons.mp member with rfl | later
      · exact notSeen
      · exact fun before => new a later (List.mem_cons_of_mem _ before)

/-- What is wrong with nodes that are nodes is that one of them stands twice. -/
theorem repeated_of_scanNodes {e : BuildError} (failed : scanNodes seen nodes = .error e) :
    ∃ g, e = .repeatedNode g := by
  induction nodes generalizing seen with
  | nil => cases failed
  | cons g rest ih =>
    rw [scanNodes_cons (whole g List.mem_cons_self)] at failed
    split at failed
    · cases failed
      exact ⟨g, rfl⟩
    · exact ih (fun a member => whole a (List.mem_cons_of_mem _ member)) failed

end Scan

section Check

variable {graphs : List Graph} (whole : ∀ g ∈ graphs, g.Whole)
include whole

private theorem isNode_of_whole : ∀ a ∈ nodesOfAll graphs, a.stray? = none := by
  intro a member
  obtain ⟨g, isGraph, inGraph⟩ := mem_nodesOfAll.mp member
  exact whole g isGraph a inGraph

/-- The check passes exactly if no node stands twice. -/
theorem checkDistinct_iff : checkDistinct graphs = .ok () ↔ Distinct graphs :=
  ⟨fun scanned => (apart_of_scanNodes (isNode_of_whole whole) scanned).1,
    fun distinct => scanNodes_of_apart (isNode_of_whole whole) distinct fun _ _ => List.not_mem_nil⟩

theorem yields_checkDistinct {n : Nat} :
    (liftM (checkDistinct graphs) : Building Unit).Yields n fun _ n' => n' = n ∧ Distinct graphs := by
  cases checked : checkDistinct graphs with
  | ok _ => exact .lift_ok rfl ⟨rfl, (checkDistinct_iff whole).mp checked⟩
  | error e =>
    obtain ⟨g, rfl⟩ := repeated_of_scanNodes (isNode_of_whole whole) checked
    exact .lift_error rfl fun m => ⟨_, rfl⟩

end Check

/-- After the question whether a stream is taken, building goes on if it is free. -/
theorem yields_free {α : Type} {g : Graph} (whole : g.Whole) {s : Stream} {c : Conflict}
    {next : Unit → Building α} {n : Nat} {result : α → Nat → Prop}
    (rest : g.boundary s = none → (next ()).Yields n result) :
    (do
      let taken ← liftM (isTaken g s)
      if taken then do
        let r ← throw (.conflict c)
        next r
      else next () : Building α).Yields n result := by
  have asked : (liftM (isTaken g s) : Building Bool).Yields n fun taken m =>
      taken = (g.boundary s).isSome ∧ m = n := .lift_ok (isTaken_of_whole whole s) ⟨rfl, rfl⟩
  refine .bind asked ?_
  rintro taken m - ⟨rfl, rfl⟩
  exact .check (fun m => ⟨_, rfl⟩) fun free =>
    rest (Option.isNone_iff_eq_none.mp (Option.isSome_eq_false_iff.mp free))

/-- After the question whether a stream is taken, building goes on exactly if it is free. -/
theorem settles_free {α : Type} {g : Graph} (whole : g.Whole) {s : Stream} {c : Conflict}
    {next : Unit → Building α} {n : Nat} {accepted : Prop} {result : α → Nat → Prop}
    (rest : g.boundary s = none → (next ()).Settles n accepted result) :
    (do
      let taken ← liftM (isTaken g s)
      if taken then do
        let r ← throw (.conflict c)
        next r
      else next () : Building α).Settles n (g.boundary s = none ∧ accepted) result := by
  rw [isTaken_of_whole whole]
  cases found : g.boundary s with
  | none => exact (rest found).mono ⟨fun accepted => ⟨rfl, accepted⟩, And.right⟩ fun _ _ _ _ made => made
  | some t => exact ⟨fun both => absurd both.1 nofun, fun m => ⟨_, rfl⟩⟩

end Graph

end Pipework
