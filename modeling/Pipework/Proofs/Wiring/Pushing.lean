import Pipework.Proofs.Wiring.Carrying
import Pipework.Proofs.Wiring.Doable

/-!
# Redirects at a boundary, outside and inside

A pipe may be redirected at its boundary, or instead the node at its left end and the node at its right end. The
chores are the same, but for their order and for where the two redirects stand (`Graph.pushed_of_gains`): outside, they
are served before everything else, inside, when the walk comes to the nodes that have them. So the walk inside comes
to its end only if the one outside does, and the other way round if no redirect reads the file that the redirect of
stdout makes.
-/

namespace Pipework

/-- The claims of redirects of the root, as claims of the nodes at two places: one that has the redirect of stdin
instead, and one that has that of stdout. -/
def Claim.pushed (input output : Place) : Claim → Claim
  | .near [] .stdin => .near input .stdin
  | .far [] .stdin => .far input .stdin
  | .near [] .stdout => .near output .stdout
  | .far [] .stdout => .far output .stdout
  | c => c

/-- Claims of parts stay where they are. -/
theorem Claim.pushed_below (input output : Place) (c : Claim) (turn : Turn) :
    (c.below [turn]).pushed input output = c.below [turn] := by
  cases c with
  | near place s | far place s => cases place <;> rfl
  | writing place | reading place => rfl

section Carried

variable {φ : Claim → Claim} {claim : Stream → Option Claim} {above above' : Lineage} {chores chores' : List Chore}

/-- A part stays where it is, and what came to it from above comes from another claim. -/
theorem Chore.Fed.carried (fed : List.Forall₂ (Chore.Fed claim) chores chores') (place : above'.place = above.place)
    (fixed : ∀ c : Claim, φ (c.below above.place) = c.below above.place)
    (claims : ∀ t, ((claim t).map (Claim.below above.place)).or (above'.claim t) = (above.claim t).map φ) :
    List.Forall₂ (Chore.Carried φ) (chores.map (Chore.below above)) (chores'.map (Chore.below above')) := by
  rw [List.forall₂_map_left_iff, List.forall₂_map_right_iff]
  refine fed.imp fun c c' fed => ?_
  cases fed with
  | redirect q s target =>
    rw [Chore.below, Chore.below, place]
    exact .redirect rfl (fixed (.near q s)) (fixed (.far q s))
  | edge q =>
    rw [Chore.below, Chore.below, place]
    exact .edge (fixed (.reading q)) (fixed (.writing q))
  | start command nearest =>
    refine .start command fun t => ?_
    rw [Graph.nearest_append, Graph.nearest_append, nearest, place, Option.map_or, Option.or_assoc, claims,
      Option.map_or, Option.map_map]
    congr 2
    funext c
    exact (fixed c).symm
  | refuse e => exact .refuse e

end Carried

namespace Graph

private theorem map_edge_below (edges : List Place) (above : Lineage) :
    (edges.map Chore.edge).map (Chore.below above) = (edges.map (· ++ above.place)).map Chore.edge := by
  rw [List.map_map, List.map_map]
  rfl

/-- The redirects of stdin and of stdout at the root of a graph stand at two other places in another graph. The chores
are the same, but for when the two redirects are served. -/
structure Pushed (input output : Place) (x y : Target) (l r : Graph) : Prop where
  chores : ∃ (edges later : List Place) (before before' rest rest' : List Chore) (x' y' : Target),
    x'.bare = x.bare ∧ y'.bare = y.bare ∧
    l.chores [] = .redirect [] .stdin x :: .redirect [] .stdout y ::
      (edges.map .edge ++ (before ++ (later.map .edge ++ rest))) ∧
    r.chores [] = edges.map .edge ++ .redirect input .stdin x' ::
      (before' ++ (later.map .edge ++ .redirect output .stdout y' :: rest')) ∧
    List.Forall₂ (Chore.Carried (Claim.pushed input output)) before before' ∧
    List.Forall₂ (Chore.Carried (Claim.pushed input output)) rest rest'

/-- **Redirects of the boundary of a pipe may be put on the nodes at its ends.** -/
theorem pushed_of_gains {left last left' last' : Graph} {place place' : Place} {x y x' y' : Labelled Target}
    {r : Redirects} (first : Gains place .stdin x'.it left left') (final : Gains place' .stdout y'.it last last')
    (same : x'.it.bare = x.it.bare ∧ y'.it.bare = y.it.bare) (input : r.stdin = some x) (output : r.stdout = some y)
    (errors : r.stderr = none) (plain : x.it.graph? = none ∧ y.it.graph? = none) (k k' : Nat) :
    Pushed (place ++ [.left]) (place' ++ [.right]) x.it y.it (.pipe k left last r) (.pipe k' left' last' {}) := by
  obtain ⟨edges, before, before', chores, chores', fed⟩ := first
  obtain ⟨later, rest, rest', choresLast, choresLast', fedLast⟩ := final
  obtain ⟨stdin, stdout, stderr, label⟩ := r
  obtain rfl : stdin = some x := input
  obtain rfl : stdout = some y := output
  obtain rfl : stderr = none := errors
  have attached :
      choresOfRedirects (.pipe k left last ⟨some x, some y, none, label⟩) [] ⟨some x, some y, none, label⟩ = [] := by
    have none (s : Stream) : Redirects.attached? ⟨some x, some y, none, label⟩ s = none := by
      cases s
      exacts [plain.1, plain.2, rfl]
    rw [Chore.choresOfRedirects_eq, Chore.choresOfTarget?_of_none _ (none .stdin),
      Chore.choresOfTarget?_of_none _ (none .stdout), Chore.choresOfTarget?_of_none _ (none .stderr)]
    rfl
  have onLeft := left.chores_below [] [(.left, .pipe k left last ⟨some x, some y, none, label⟩)]
  have onRight := last.chores_below [] [(.right, .pipe k left last ⟨some x, some y, none, label⟩)]
  rw [List.nil_append] at onLeft onRight
  refine ⟨[] :: edges.map (· ++ [.left]), later.map (· ++ [.right]),
    before.map (Chore.below [(.left, .pipe k left last ⟨some x, some y, none, label⟩)]),
    before'.map (Chore.below [(.left, .pipe k' left' last' {})]),
    rest.map (Chore.below [(.right, .pipe k left last ⟨some x, some y, none, label⟩)]),
    rest'.map (Chore.below [(.right, .pipe k' left' last' {})]), x'.it, y'.it, same.1, same.2, ?_, ?_, ?_, ?_⟩
  · rw [Graph.chores, attached, onLeft, onRight, chores, choresLast, List.map_append, List.map_append, map_edge_below,
      map_edge_below, List.append_nil, List.append_assoc]
    rfl
  · rw [chores_bare_pipe, chores', choresLast', List.map_append, List.map_append, map_edge_below, map_edge_below,
      List.append_assoc]
    rfl
  · exact Chore.Fed.carried fed rfl (Claim.pushed_below _ _ · _) fun t => by cases t <;> rfl
  · exact Chore.Fed.carried fedLast rfl (Claim.pushed_below _ _ · _) fun t => by cases t <;> rfl

theorem Pushed.rearranged {input output : Place} {x y : Target} {l r : Graph} (pushed : Pushed input output x y l r) :
    l.Rearranged (Claim.pushed input output) r := by
  obtain ⟨edges, later, before, before', rest, rest', x', y', sameInput, sameOutput, here, there, first, second⟩ :=
    pushed.chores
  have unmoved (edges : List Place) :
      List.Forall₂ (Chore.Carried (Claim.pushed input output)) (edges.map .edge) (edges.map .edge) := by
    rw [List.forall₂_map_left_iff, List.forall₂_map_right_iff]
    exact List.forall₂_same.mpr fun q _ => .edge rfl rfl
  refine ⟨.redirect input .stdin x' :: .redirect output .stdout y' ::
    (edges.map .edge ++ (before' ++ (later.map .edge ++ rest'))), ?_, ?_, ?_⟩
  · rw [here]
    exact .cons (.redirect sameInput rfl rfl) (.cons (.redirect sameOutput rfl rfl)
      (List.rel_append (unmoved edges) (List.rel_append first (List.rel_append (unmoved later) second))))
  · rw [there]
    refine .trans (.cons _ ?_) List.perm_middle.symm
    refine List.perm_middle.symm.trans (.append_left _ ?_)
    refine List.perm_middle.symm.trans (.append_left _ ?_)
    exact List.perm_middle.symm
  · rw [Graph.occurrences, there]
    simp only [List.filterMap_append, List.filterMap_cons, Chore.leaf?]

end Graph

/-! ## How far the walks come -/

namespace Chore

variable {φ : Claim → Claim} {c c' : Chore} {chores chores' : List Chore} {w : World} {names : List Text}

theorem Carried.filed (carried : c.Carried φ c') : c'.filed = c.filed := by
  rw [Chore.filed, Chore.filed, carried.making?]
  cases c.making? with
  | none => rfl
  | some m => cases m <;> rfl

theorem Carried.doable (carried : c.Carried φ c') : c'.Doable w names ↔ c.Doable w names := by
  have made := carried.making?
  cases carried with
  | @redirect place place' s t t' target near far =>
    change (∃ m, (Chore.redirect place' s t').making? = some m ∧ _) ↔ ∃ m, (Chore.redirect place s t).making? = some m ∧ _
    rw [made]
    cases (Chore.redirect place s t).making? with
    | none => simp
    | some m => cases m <;> simp [Making.map, Making.Possible]
  | edge => exact .rfl
  | start command nearest => rw [Doable, Doable, command]
  | refuse e => exact .rfl

theorem Carried.all_filed (carried : List.Forall₂ (Carried φ) chores chores') :
    chores'.flatMap Chore.filed = chores.flatMap Chore.filed := by
  induction carried with
  | nil => rfl
  | cons first rest ih => rw [List.flatMap_cons, List.flatMap_cons, first.filed, ih]

theorem Carried.allDoable (carried : List.Forall₂ (Carried φ) chores chores') :
    AllDoable w names chores' ↔ AllDoable w names chores := by
  induction carried generalizing names with
  | nil => exact .rfl
  | cons first rest ih => rw [AllDoable, AllDoable, first.doable, first.filed, ih]

/-- What is redirected to stdin makes no file. -/
theorem filed_of_input (place : Place) (t : Target) : (redirect place .stdin t).filed = [] := by
  cases t with
  | file path append =>
    obtain ⟨label, value⟩ := path
    cases value <;> rfl
  | stream held =>
    rw [filed, making?, Target.making?]
    cases held.it.descriptor? <;> rfl
  | _ => rfl

/-- What is redirected from stdout reads no file. -/
theorem not_reads_of_output (place : Place) (t : Target) (name : Text) : ¬ (redirect place .stdout t).Reads name := by
  rintro ⟨claim, made⟩
  cases t with
  | file path append =>
    obtain ⟨label, value⟩ := path
    cases value <;> cases append <;> cases made
  | stream held =>
    rw [making?, Target.making?, Option.map_eq_some_iff] at made
    obtain ⟨d, -, same⟩ := made
    cases same
  | _ => cases made

end Chore

namespace Graph

/-- No redirect of a graph reads the file that the redirect of stdout at the root makes, unless that file is there
before. -/
def ReadsNoOutput (g : Graph) (w : World) : Prop :=
  ∀ c ∈ g.chores [], ∀ t : Target, .redirect [] .stdout t ∈ g.chores [] →
    ∀ name ∈ (Chore.redirect [] .stdout t).filed, c.Reads name → (w.file? name).isSome

namespace Pushed

open Chore

variable {input output : Place} {x y : Target} {l r : Graph} (pushed : Pushed input output x y l r) {w : World}
include pushed

/-- What can be done with the redirects inside can be done with the redirects outside, as everything is opened at
least as early. And what can be done with the redirects outside can be done with the redirects inside, as long as
nothing reads the file that the redirect of stdout makes. -/
theorem allDoable : (AllDoable w [] (r.chores []) → AllDoable w [] (l.chores [])) ∧
    (l.ReadsNoOutput w → AllDoable w [] (l.chores []) → AllDoable w [] (r.chores [])) := by
  obtain ⟨edges, later, before, before', rest, rest', x', y', sameInput, sameOutput, here, there, first, second⟩ :=
    pushed.chores
  have isInput : (Chore.redirect [] .stdin x).Carried (Claim.pushed input output) (.redirect input .stdin x') :=
    .redirect sameInput rfl rfl
  have isOutput : (Chore.redirect [] .stdout y).Carried (Claim.pushed input output) (.redirect output .stdout y') :=
    .redirect sameOutput rfl rfl
  have anywhere {names : List Text} :
      (Chore.redirect [] .stdout y).Doable w names ↔ (Chore.redirect [] .stdout y).Doable w [] :=
    ⟨fun doable => doable.change fun _ _ reads => absurd reads (not_reads_of_output _ _ _),
      fun doable => doable.change fun _ _ reads => absurd reads (not_reads_of_output _ _ _)⟩
  have inside : AllDoable w [] (r.chores []) ↔
      (Chore.redirect [] .stdin x).Doable w [] ∧ (Chore.redirect [] .stdout y).Doable w [] ∧
      AllDoable w [] before ∧ AllDoable w (before.flatMap filed ++ (Chore.redirect [] .stdout y).filed) rest := by
    rw [there]
    simp only [allDoable_append, AllDoable, allDoable_edges, filed_edges, isInput.doable, isOutput.doable, isInput.filed,
      isOutput.filed, filed_of_input, Carried.allDoable first, Carried.all_filed first,
      Carried.allDoable second, List.nil_append, List.append_nil, anywhere, true_and]
    tauto
  have outside : AllDoable w [] (l.chores []) ↔
      (Chore.redirect [] .stdin x).Doable w [] ∧ (Chore.redirect [] .stdout y).Doable w [] ∧
      AllDoable w (Chore.redirect [] .stdout y).filed before ∧
      AllDoable w ((Chore.redirect [] .stdout y).filed ++ before.flatMap filed) rest := by
    rw [here]
    simp only [allDoable_append, AllDoable, allDoable_edges, filed_edges, filed_of_input, List.nil_append,
      List.append_nil, true_and]
  rw [inside, outside]
  constructor
  · rintro ⟨doesInput, doesOutput, doesBefore, doesRest⟩
    exact ⟨doesInput, doesOutput, doesBefore.mono (List.nil_subset _), doesRest.mono List.perm_append_comm.subset⟩
  · rintro readsNone ⟨doesInput, doesOutput, doesBefore, doesRest⟩
    refine ⟨doesInput, doesOutput, doesBefore.change fun c member name isName reads => ?_,
      doesRest.mono List.perm_append_comm.subset⟩
    refine .inl (readsNone c ?_ y ?_ name isName reads) <;> rw [here]
    · simp [member]
    · simp

end Pushed

end Graph

end Pipework
