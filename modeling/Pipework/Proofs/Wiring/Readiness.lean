import Pipework.Proofs.Wiring.Distinct

/-!
# Streams come before their commands

Among the chores of a graph, those that serve the streams of a command come before the one that starts
it: the redirects of the command itself, and for everything that comes to it from above the chores of
the nodes above. Nothing of the kind holds between two commands: the redirects of a later command come
after the start of an earlier one.
-/

namespace Pipework

namespace Chore

/-- A chore makes or takes over what a claim gets. -/
def Serves : Chore → Claim → Prop
  | redirect place s target, claim =>
    claim = .near place s ∨ target.isGraph ∧ claim = .far place s
  | edge place, claim => claim = .reading place ∨ claim = .writing place
  | _, _ => False

/-- Every claim on one of some streams is served by some chores. -/
def Provide (chores : List Chore) (claim : Stream → Option Claim) : Prop :=
  ∀ s k, claim s = some k → ∃ c ∈ chores, c.Serves k

/-- Some chores, to be done after others, in which every command comes after what serves its streams. -/
def Ordered (before : List Chore) : List Chore → Prop
  | [] => True
  | c :: rest =>
    (∀ leaf above, c = .start leaf above → Provide before (leaf.nearest above)) ∧
      Ordered (before ++ [c]) rest

theorem Provide.mono {chores more : List Chore} {claim : Stream → Option Claim}
    (provide : Provide chores claim) (subset : chores ⊆ more) : Provide more claim :=
  fun s k claimed => (provide s k claimed).imp fun _ found => ⟨subset found.1, found.2⟩

theorem ordered_append {before a b : List Chore} :
    Ordered before (a ++ b) ↔ Ordered before a ∧ Ordered (before ++ a) b := by
  induction a generalizing before with
  | nil => simp [Ordered]
  | cons c rest ih => simp [Ordered, ih, and_assoc]

theorem ordered_of_no_start {before chores : List Chore}
    (none : ∀ leaf above, .start leaf above ∉ chores) : Ordered before chores := by
  induction chores generalizing before with
  | nil => trivial
  | cons c rest ih =>
    refine ⟨fun leaf above same => ?_, ih fun leaf above member =>
      none leaf above (List.mem_cons_of_mem _ member)⟩
    exact absurd (same ▸ List.mem_cons_self) (none leaf above)

/-- The chores before a command provide its streams. -/
theorem Ordered.provide {before a b : List Chore} {leaf : Graph} {above : Lineage}
    (ordered : Ordered before (a ++ .start leaf above :: b)) :
    Provide (before ++ a) (leaf.nearest above) :=
  (ordered_append.mp ordered).2.1 leaf above rfl

/-- The chore of a redirect. -/
theorem mem_ofRedirects {place : Place} {r : Redirects} {s : Stream} {t : Labelled Target}
    (found : r.get s = some t) : .redirect place s t.it ∈ ofRedirects place r := by
  refine List.mem_map.mpr ⟨(s, t), List.mem_filterMap.mpr ⟨s, ?_, by rw [found]; rfl⟩, rfl⟩
  cases s <;> decide

theorem not_start_ofRedirects {place : Place} {r : Redirects} (leaf : Graph) (above : Lineage) :
    .start leaf above ∉ ofRedirects place r := by
  intro member
  obtain ⟨item, _, same⟩ := List.mem_map.mp member
  cases same

/-- The redirects of a node start no command. -/
private theorem ordered_ofRedirects (before : List Chore) (place : Place) (r : Redirects) :
    Ordered before (ofRedirects place r) :=
  ordered_of_no_start fun leaf above => not_start_ofRedirects leaf above

section Node

variable {before : List Chore} {g : Graph} {above : Lineage}
variable (own : ofRedirects above.place g.redirects ⊆ before) (outer : Provide before above.claim)
include own outer

/-- What a node claims itself is served by its redirects; everything else comes from above. -/
private theorem provide_node : Provide before (g.nearest above) := by
  intro s k nearest
  rw [Graph.nearest, Option.or_eq_some_iff] at nearest
  rcases nearest with mine | ⟨-, fromAbove⟩
  · obtain ⟨t, found, rfl⟩ := Option.map_eq_some_iff.mp mine
    exact ⟨_, own (mem_ofRedirects found), .inl rfl⟩
  · exact outer s k fromAbove

/-- To the left part of a pipe comes the write end of the pipe, to the right part the read end. -/
private theorem provide_sides (edge : .edge above.place ∈ before) :
    Provide before (Lineage.claim ((.left, g) :: above)) ∧
      Provide before (Lineage.claim ((.right, g) :: above)) := by
  constructor
  · intro s k claimed
    rw [Lineage.claim_left] at claimed
    split at claimed
    · cases claimed
      exact ⟨_, edge, .inr rfl⟩
    · exact provide_node own outer s k claimed
  · intro s k claimed
    rw [Lineage.claim_right] at claimed
    split at claimed
    · cases claimed
      exact ⟨_, edge, .inl rfl⟩
    · exact provide_node own outer s k claimed

/-- To a graph that a redirect leads to comes the far end of the pipe that is made for the redirect. -/
private theorem provide_attached {t : Stream} {h : Graph}
    (attached : g.redirects.attached? t = some h) :
    Provide before (Lineage.claim ((.attached t, g) :: above)) := by
  intro s k claimed
  rw [Lineage.claim_attached] at claimed
  split at claimed
  · cases claimed
    obtain ⟨⟨label, target⟩, found, leads⟩ := Option.bind_eq_some_iff.mp attached
    have isGraph : target.isGraph := by cases target <;> first | rfl | cases leads
    exact ⟨_, own (mem_ofRedirects found), .inr ⟨isGraph, rfl⟩⟩
  · exact outer s k claimed

private theorem ordered_redirects
    (attached : ∀ s h, g.redirects.attached? s = some h → ∀ {before above},
      Provide before above.claim → Ordered before (h.chores above)) :
    Ordered before (Graph.choresOfRedirects g above g.redirects) := by
  have target (s : Stream) {more : List Chore} (subset : before ⊆ more) :
      Ordered more (Graph.choresOfTarget? ((.attached s, g) :: above) (g.redirects.get s)) := by
    cases found : g.redirects.attached? s with
    | none =>
      rw [choresOfTarget?_of_none _ found]
      trivial
    | some h =>
      rw [choresOfTarget?_of_attached _ found]
      exact attached s h found ((provide_attached own outer found).mono subset)
  rw [choresOfRedirects_eq, ordered_append, ordered_append]
  exact ⟨target .stdin (List.Subset.refl _), target .stdout (List.subset_append_left _ _),
    target .stderr (by simp)⟩

private theorem ordered_members (members : List Graph) (index : Nat)
    (inMembers : ∀ h ∈ members, ∀ {before above},
      Provide before above.claim → Ordered before (h.chores above)) :
    Ordered before (Graph.choresOfMembers g above index members) := by
  induction members generalizing before index with
  | nil => trivial
  | cons h rest ih =>
    have here : Provide before (Lineage.claim ((.member index, g) :: above)) := fun s k claimed =>
      provide_node own outer s k (Lineage.claim_member g above s index ▸ claimed)
    rw [Graph.choresOfMembers, ordered_append]
    exact ⟨inMembers h List.mem_cons_self here,
      ih (List.Subset.trans own (List.subset_append_left _ _)) (outer.mono (List.subset_append_left _ _)) _
        fun h member => inMembers h (List.mem_cons_of_mem _ member)⟩

end Node

/-- In the chores of a graph every command comes after what serves its streams, if what comes to the
graph from above is served already. -/
theorem ordered_chores (g : Graph) {before : List Chore} {above : Lineage}
    (outer : Provide before above.claim) : Ordered before (g.chores above) := by
  induction g using Graph.induction generalizing before above with
  | leaf number command r attached =>
    rw [Graph.chores, ordered_append]
    refine ⟨ordered_ofRedirects before above.place r, fun leaf l same => ?_, ?_⟩
    · cases same
      exact provide_node (List.subset_append_right _ _) (outer.mono (List.subset_append_left _ _))
    · refine ordered_redirects (g := .leaf number command r) ?_ (outer.mono ?_) attached
      · exact List.Subset.trans (List.subset_append_right _ _) (List.subset_append_left _ _)
      · exact List.Subset.trans (List.subset_append_left _ _) (List.subset_append_left _ _)
  | pipe number left right r inLeft inRight attached =>
    rw [Graph.chores, List.append_cons, ordered_append]
    refine ⟨ordered_append.mpr ⟨ordered_ofRedirects _ _ _, by rintro _ _ ⟨⟩, trivial⟩, ?_⟩
    have own : ofRedirects above.place r ⊆ before ++ (ofRedirects above.place r ++ [.edge above.place]) :=
      List.Subset.trans (List.subset_append_left _ _) (List.subset_append_right _ _)
    have edge : .edge above.place ∈ before ++ (ofRedirects above.place r ++ [.edge above.place]) := by
      simp
    have outer := outer.mono (List.subset_append_left before
      (ofRedirects above.place r ++ [.edge above.place]))
    generalize before ++ (ofRedirects above.place r ++ [.edge above.place]) = known at own edge outer ⊢
    have sides := provide_sides (g := .pipe number left right r) own outer edge
    have first := List.subset_append_left known (left.chores ((.left, .pipe number left right r) :: above))
    have second := List.Subset.trans first (List.subset_append_left _
      (right.chores ((.right, .pipe number left right r) :: above)))
    rw [ordered_append, ordered_append]
    exact ⟨inLeft sides.1, inRight (sides.2.mono first),
      ordered_redirects (g := .pipe number left right r) (List.Subset.trans own second)
        (outer.mono second) attached⟩
  | group number label members r inMembers attached =>
    have own : ofRedirects above.place r ⊆ before ++ ofRedirects above.place r :=
      List.subset_append_right _ _
    have outer := outer.mono (List.subset_append_left before (ofRedirects above.place r))
    have later := List.subset_append_left (before ++ ofRedirects above.place r)
      (Graph.choresOfMembers (.group number label members r) above 0 members)
    rw [Graph.chores, ordered_append, ordered_append]
    exact ⟨ordered_ofRedirects _ _ _,
      ordered_members (g := .group number label members r) own outer members 0 inMembers,
      ordered_redirects (g := .group number label members r) (List.Subset.trans own later) (outer.mono later)
        attached⟩
  | unknown number name => exact ordered_of_no_start (by simp [Graph.chores])
  | stray held => exact ordered_of_no_start (by simp [Graph.chores])

end Chore

end Pipework
