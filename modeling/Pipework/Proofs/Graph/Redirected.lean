import Pipework.Proofs.Graph.Regrouping

/-!
# Redirects of a regrouped pipe

Two steps of building run in parallel if they draw the same numbers and both have a result, or both fail
alike (`Building.Parallel`). Whatever redirects are given for a pipe of three graphs, putting them on the one
grouping runs in parallel with putting them on the other.
-/

namespace Pipework

/-- The same error, or two that the caller sees as build errors. -/
def BuildError.Like (e e' : BuildError) : Prop := e' = e ∨ e.IsRefusal ∧ e'.IsRefusal

namespace Building

variable {α β α' β' : Type}

/-- Two steps of building draw the same numbers and have related results, or fail alike. -/
def Parallel (x : Building α) (y : Building β) (R : α → β → Prop) : Prop :=
  ∀ n, match x.run n, y.run n with
    | .ok (a, m), .ok (b, m') => m = m' ∧ R a b
    | .error e, .error e' => e.Like e'
    | _, _ => False

namespace Parallel

variable {x : Building α} {y : Building β} {R : α → β → Prop}

theorem refl (x : Building α) : x.Parallel x Eq := by
  intro n
  cases x.run n with
  | ok done => exact ⟨rfl, rfl⟩
  | error e => exact .inl rfl

theorem pure {a : α} {b : β} (related : R a b) : (Pure.pure a : Building α).Parallel (Pure.pure b : Building β) R :=
  fun _ => ⟨rfl, related⟩

theorem throw {e e' : BuildError} (like : e.Like e') :
    (MonadExcept.throw e : Building α).Parallel (MonadExcept.throw e' : Building β) R := fun _ => like

theorem bind {f : α → Building α'} {g : β → Building β'} {S : α' → β' → Prop} (first : x.Parallel y R)
    (second : ∀ a b, R a b → (f a).Parallel (g b) S) : (x >>= f).Parallel (y >>= g) S := by
  intro n
  have together := first n
  rw [StateT.run_bind, StateT.run_bind]
  cases ran : x.run n with
  | error e =>
    cases ran' : y.run n with
    | error e' =>
      rw [ran, ran'] at together
      exact together
    | ok done =>
      rw [ran, ran'] at together
      exact together.elim
  | ok done =>
    cases ran' : y.run n with
    | error e' =>
      rw [ran, ran'] at together
      exact together.elim
    | ok done' =>
      rw [ran, ran'] at together
      obtain ⟨a, m⟩ := done
      obtain ⟨b, m'⟩ := done'
      obtain ⟨rfl, related⟩ := together
      exact second a b related m

end Parallel

end Building

namespace Graph

open Building

theorem Regrouped.redirects {l r : Graph} (regrouped : l.Regrouped r) : r.redirects = l.redirects := by
  cases regrouped
  rfl

theorem Regrouped.boundary {l r : Graph} (regrouped : l.Regrouped r) (s : Stream) :
    r.boundary s = l.boundary s := by
  have within : r.within s = l.within s := by
    cases regrouped with
    | pipe first second third =>
      cases s with
      | stdin => exact (congrFun first.boundary .stdin).symm
      | stdout => exact (congrFun third.boundary .stdout).symm
      | stderr => rfl
  rw [boundary_eq, boundary_eq, regrouped.redirects, within]

/-- The same pipes with new redirects on both. -/
theorem Regrouped.withRedirects? {l r : Graph} (regrouped : l.Regrouped r) (number : Nat) (redirects : Redirects) :
    ∃ l' r', l.withRedirects? number redirects = some l' ∧ r.withRedirects? number redirects = some r' ∧
      l'.Regrouped r' := by
  cases regrouped with
  | pipe first second third => exact ⟨_, _, rfl, rfl, .pipe first second third _ _ _ _⟩

/-! ## The check of the nodes -/

/-- Of the nodes that were there before, only which there are counts. -/
theorem scanNodes_congr {seen seen' : List Nat} (same : ∀ k, k ∈ seen ↔ k ∈ seen') (nodes : List Graph) :
    scanNodes seen nodes = scanNodes seen' nodes := by
  induction nodes generalizing seen seen' with
  | nil => rfl
  | cons g rest ih =>
    have later : ∀ k, k ∈ g.number :: seen ↔ k ∈ g.number :: seen' := by simp [same]
    cases g with
    | stray held => rfl
    | _ => simp only [scanNodes, List.contains_eq_mem, same, ih later]

/-- Nodes of which none stands twice and none was there before can be left out of the check. -/
theorem scanNodes_append {nodes : List Graph} (whole : ∀ a ∈ nodes, a.stray? = none) {seen : List Nat}
    (distinct : (nodes.map number).Nodup) (new : ∀ a ∈ nodes, a.number ∉ seen) (rest : List Graph) :
    scanNodes seen (nodes ++ rest) = scanNodes ((nodes.map number).reverse ++ seen) rest := by
  induction nodes generalizing seen with
  | nil => rfl
  | cons g later ih =>
    rw [List.map_cons, List.nodup_cons] at distinct
    rw [List.cons_append, scanNodes_cons (whole g List.mem_cons_self), if_neg (new g List.mem_cons_self),
      ih (fun a member => whole a (List.mem_cons_of_mem _ member)) distinct.2]
    · simp
    · intro a member before
      rcases List.mem_cons.mp before with same | before
      · exact distinct.1 (same ▸ List.mem_map_of_mem member)
      · exact new a (List.mem_cons_of_mem _ member) before

theorem Matched.checkDistinct_cons {l r : Graph} (matched : l.Matched r) (graphs : List Graph) :
    checkDistinct (r :: graphs) = checkDistinct (l :: graphs) := by
  obtain ⟨-, ⟨wholeLeft, wholeRight⟩, distinct, numbers⟩ := matched
  have distinct' : Distinct [r] := numbers.nodup_iff.mp distinct
  have one {g : Graph} (whole : g.Whole) (distinct : Distinct [g]) :
      checkDistinct (g :: graphs) = scanNodes ((g.nodes.map number).reverse ++ []) (nodesOfAll graphs) := by
    rw [Distinct, nodesOfAll_singleton] at distinct
    exact scanNodes_append whole distinct (fun _ _ => List.not_mem_nil) _
  rw [one wholeLeft distinct, one wholeRight distinct']
  refine scanNodes_congr (fun k => ?_) _
  rw [numbersOf, numbersOf, nodesOfAll_singleton, nodesOfAll_singleton] at numbers
  simpa using numbers.symm.mem_iff

/-! ## Redirecting -/

section Redirect

variable {l r : Graph} (matched : l.Matched r) (values : RedirectValues) (append : Bool)
include matched

/-- Whether a stream is taken is the same question for both. -/
theorem Matched.isTaken (s : Stream) : r.isTaken s = .ok (l.boundary s).isSome ∧
    l.isTaken s = .ok (l.boundary s).isSome := by
  obtain ⟨regrouped, ⟨wholeLeft, wholeRight⟩, -, -⟩ := matched
  rw [isTaken_of_whole wholeLeft, isTaken_of_whole wholeRight, regrouped.boundary]
  exact ⟨rfl, rfl⟩

theorem Matched.claim (s : Stream) : (l.claim values append s).Parallel (r.claim values append s) Eq := by
  refine .bind (.refl _) ?_
  rintro t? _ rfl
  cases t? with
  | none => exact .pure rfl
  | some t =>
    obtain ⟨right, left⟩ := matched.isTaken s
    dsimp only
    rw [left, right]
    cases (l.boundary s).isSome with
    | true => exact .throw (.inr ⟨fun m => ⟨_, rfl⟩, fun m => ⟨_, rfl⟩⟩)
    | false => exact .refl _

/-- **The same redirects can be put on both groupings**, and what comes of them differs in the grouping only. -/
theorem Matched.redirect :
    (redirect l.toItem values append).Parallel (redirect r.toItem values append) Regrouped := by
  have item {g h : Graph} (regrouped : g.Regrouped h) : ofItem g.toItem = pure g ∧ ofItem h.toItem = pure h := by
    cases regrouped
    exact ⟨rfl, rfl⟩
  rw [Graph.redirect, Graph.redirect, (item matched.regrouped).1, (item matched.regrouped).2, pure_bind, pure_bind]
  refine .bind (matched.claim values append .stdin) ?_
  rintro stdin _ rfl
  refine .bind (matched.claim values append .stdout) ?_
  rintro stdout _ rfl
  refine .bind (matched.claim values append .stderr) ?_
  rintro stderr _ rfl
  dsimp only
  split
  · exact .pure matched.regrouped
  rw [matched.checkDistinct_cons, matched.regrouped.redirects]
  refine .bind (.refl _) ?_
  rintro _ _ rfl
  refine .bind (.refl _) ?_
  rintro merged _ rfl
  refine .bind (.refl _) ?_
  rintro number _ rfl
  obtain ⟨l', r', left, right, regrouped⟩ := matched.regrouped.withRedirects? number merged
  rw [left, right]
  exact .pure regrouped

end Redirect

end Graph

end Pipework
