import Pipework.Proofs.Wiring.Readiness
import Pipework.Proofs.Wiring.Roster

/-!
# Leaves among the chores

The chores start the leaves of a graph in the order in which `Graph.leaves` lists them, each with
the nodes above it: a leaf comes up with exactly those lineages with which it stands in the graph.
-/

namespace Pipework

namespace Chore

/-- The leaves that some chores start. -/
def leaves (chores : List Chore) : List Graph := (chores.filterMap leaf?).map (·.1)

theorem leaves_append (a b : List Chore) : leaves (a ++ b) = leaves a ++ leaves b := by
  rw [leaves, List.filterMap_append, List.map_append]
  rfl

theorem leaves_ofRedirects (place : Place) (r : Redirects) : leaves (ofRedirects place r) = [] := by
  have none : (ofRedirects place r).filterMap leaf? = [] := by
    refine List.filterMap_eq_nil_iff.mpr fun c member => ?_
    obtain ⟨item, _, rfl⟩ := List.mem_map.mp member
    rfl
  rw [leaves, none]
  rfl

private theorem leavesOfTarget?_eq (r : Redirects) (s : Stream) :
    Graph.leavesOfTarget? (r.get s) = ((r.attached? s).map Graph.leaves).getD [] := by
  unfold Redirects.attached?
  cases r.get s with
  | none => rfl
  | some t =>
    obtain ⟨label, target⟩ := t
    cases target <;> rfl

private theorem leaves_choresOfRedirects (owner : Graph) (above : Lineage) (r : Redirects)
    (attached : ∀ s g, r.attached? s = some g → ∀ l, leaves (g.chores l) = g.leaves) :
    leaves (Graph.choresOfRedirects owner above r) = Graph.leavesOfRedirects r := by
  have target (s : Stream) : leaves (Graph.choresOfTarget? ((.attached s, owner) :: above)
      (r.get s))
      = Graph.leavesOfTarget? (r.get s) := by
    rw [leavesOfTarget?_eq]
    cases found : r.attached? s with
    | none =>
      rw [choresOfTarget?_of_none _ found]
      rfl
    | some g =>
      rw [choresOfTarget?_of_attached _ found]
      exact attached s g found _
  have parts : Graph.leavesOfRedirects r = Graph.leavesOfTarget? (r.get .stdin)
      ++ Graph.leavesOfTarget? (r.get .stdout) ++ Graph.leavesOfTarget? (r.get .stderr) := by
    obtain ⟨stdin, stdout, stderr, label⟩ := r
    rfl
  rw [choresOfRedirects_eq, leaves_append, leaves_append, target, target, target, parts,
    List.append_assoc]

private theorem leaves_choresOfMembers (owner : Graph) (above : Lineage) (index : Nat)
    (members : List Graph) (inMembers : ∀ g ∈ members, ∀ l, leaves (g.chores l) = g.leaves) :
    leaves (Graph.choresOfMembers owner above index members) = Graph.leavesOfAll members := by
  induction members generalizing index with
  | nil => rfl
  | cons g rest ih =>
    rw [Graph.choresOfMembers, leaves_append, inMembers g List.mem_cons_self, Graph.leavesOfAll,
      ih (index + 1) fun g member => inMembers g (List.mem_cons_of_mem _ member)]

theorem leaves_chores (g : Graph) (above : Lineage) : leaves (g.chores above) = g.leaves := by
  induction g using Graph.induction generalizing above with
  | leaf number command r attached =>
    have rest := leaves_choresOfRedirects (.leaf number command r) above r attached
    rw [Graph.chores, leaves_append, leaves_ofRedirects, List.nil_append, Graph.leaves, ← rest]
    rfl
  | pipe number left right r inLeft inRight attached =>
    have rest := leaves_choresOfRedirects (.pipe number left right r) above r attached
    have skip (place : Place) (chores : List Chore) :
        leaves (.edge place :: chores) = leaves chores := rfl
    rw [Graph.chores, leaves_append, leaves_ofRedirects, List.nil_append, skip, leaves_append,
      leaves_append, inLeft, inRight, rest, Graph.leaves, List.append_assoc]
  | group number label members r inMembers attached =>
    have rest := leaves_choresOfRedirects (.group number label members r) above r attached
    rw [Graph.chores, leaves_append, leaves_ofRedirects, List.nil_append, leaves_append, rest,
      leaves_choresOfMembers _ above 0 members inMembers, Graph.leaves]
  | unknown number name => rfl
  | stray held => rfl

end Chore

/-- The leaf occurrences of a graph are its leaves in the order in which they are started. -/
theorem Graph.map_fst_occurrences (g : Graph) :
    g.occurrences.map (·.1) = g.leaves := Chore.leaves_chores g []

/-- Whether a node is a leaf. -/
def Graph.isLeaf : Graph → Bool
  | .leaf .. => true
  | _ => false

/-- A node stands in a graph below some nodes, the nearest first. -/
inductive Graph.Stands (root : Graph) : Graph → Lineage → Prop where
  | root : Stands root root []
  | left {number left right r above} (parent : Stands root (.pipe number left right r) above) :
    Stands root left ((.left, .pipe number left right r) :: above)
  | right {number left right r above} (parent : Stands root (.pipe number left right r) above) :
    Stands root right ((.right, .pipe number left right r) :: above)
  | member {number label members r above index g}
      (parent : Stands root (.group number label members r) above)
    (isMember : members[index]? = some g) :
    Stands root g ((.member index, .group number label members r) :: above)
  | attached {owner above s g} (parent : Stands root owner above)
      (leads : owner.redirects.attached? s = some g) :
    Stands root g ((.attached s, owner) :: above)

/-- A graph hangs below a node, one turn away. -/
inductive Graph.Child : Graph → Turn → Graph → Prop
  | left {number left right r} : Child (.pipe number left right r) .left left
  | right {number left right r} : Child (.pipe number left right r) .right right
  | member {number label members r index g} (isMember : members[index]? = some g) :
    Child (.group number label members r) (.member index) g
  | attached {owner s g} (leads : owner.redirects.attached? s = some g) :
    Child owner (.attached s) g

namespace Graph

variable {root g c : Graph} {above : Lineage} {t : Turn}

/-- A turn leads to one graph. -/
theorem Child.unique {d : Graph} (first : g.Child t c) (second : g.Child t d) : c = d := by
  cases first with
  | left => cases second; rfl
  | right => cases second; rfl
  | member isMember =>
    cases second with
    | member isMember' => exact Option.some.inj (isMember.symm.trans isMember')
  | attached leads =>
    cases second with
    | attached leads' => exact Option.some.inj (leads.symm.trans leads')

/-- Induction over what hangs below a node. -/
theorem child_induction {P : Graph → Prop} (step : ∀ g, (∀ t c, g.Child t c → P c) → P g)
    (g : Graph) : P g := by
  have ofAttached {owner : Graph} (attached : ∀ s h, owner.redirects.attached? s = some h → P h)
      (parts : ∀ t c, owner.Child t c → (∀ s, t ≠ .attached s) → P c) : P owner := by
    refine step owner fun t c child => ?_
    cases child with
    | left => exact parts _ _ .left nofun
    | right => exact parts _ _ .right nofun
    | member isMember => exact parts _ _ (.member isMember) nofun
    | attached leads => exact attached _ c leads
  induction g using Graph.induction with
  | leaf number command r attached =>
    refine ofAttached attached fun t c child other => ?_
    cases child with
    | attached leads => exact absurd rfl (other _)
  | pipe number left right r inLeft inRight attached =>
    refine ofAttached attached fun t c child other => ?_
    cases child with
    | left => exact inLeft
    | right => exact inRight
    | attached leads => exact absurd rfl (other _)
  | group number label members r inMembers attached =>
    refine ofAttached attached fun t c child other => ?_
    cases child with
    | member isMember => exact inMembers c (List.mem_of_getElem? isMember)
    | attached leads => exact absurd rfl (other _)
  | unknown number name =>
    refine step _ fun t c child => ?_
    cases child with
    | @attached _ s _ leads => cases s <;> cases leads
  | stray held =>
    refine step _ fun t c child => ?_
    cases child with
    | @attached _ s _ leads => cases s <;> cases leads

theorem Stands.child (stands : root.Stands g above) (child : g.Child t c) :
    root.Stands c ((t, g) :: above) := by
  cases child with
  | left => exact .left stands
  | right => exact .right stands
  | member isMember => exact .member stands isMember
  | attached leads => exact .attached stands leads

end Graph

namespace Chore

variable {g : Graph} {above : Lineage}

private theorem mem_choresOfRedirects {s : Stream} {h : Graph}
    (leads : g.redirects.attached? s = some h) {c : Chore}
    (member : c ∈ h.chores ((.attached s, g) :: above)) :
    c ∈ Graph.choresOfRedirects g above g.redirects := by
  rw [← choresOfTarget?_of_attached _ leads] at member
  rw [choresOfRedirects_eq]
  cases s with
  | stdin => exact List.mem_append_left _ member
  | stdout => exact List.mem_append_right _ (List.mem_append_left _ member)
  | stderr => exact List.mem_append_right _ (List.mem_append_right _ member)

private theorem mem_choresOfMembers {h : Graph} {members : List Graph} {i : Nat} (index : Nat)
    (isMember : members[i]? = some h) {c : Chore}
    (member : c ∈ h.chores ((.member (index + i), g) :: above)) :
    c ∈ Graph.choresOfMembers g above index members := by
  induction members generalizing i index with
  | nil => cases isMember
  | cons first rest ih =>
    rw [Graph.choresOfMembers, List.mem_append]
    cases i with
    | zero =>
      cases isMember
      exact .inl member
    | succ i =>
      refine .inr (ih (index + 1) isMember ?_)
      rw [Nat.add_right_comm]
      exact member

/-- The chores of what hangs below a node are chores of the node. -/
theorem mem_chores_of_child {t : Turn} {h : Graph} (child : g.Child t h) {c : Chore}
    (member : c ∈ h.chores ((t, g) :: above)) : c ∈ g.chores above := by
  cases child with
  | left =>
    rw [Graph.chores]
    simp [member]
  | right =>
    rw [Graph.chores]
    simp [member]
  | @member number label members r index _ isMember =>
    have shifted : c ∈ h.chores ((.member (0 + index), .group number label members r) ::
        above) := by
      rw [Nat.zero_add]
      exact member
    rw [Graph.chores]
    exact List.mem_append_right _ (List.mem_append_left _ (mem_choresOfMembers 0 isMember shifted))
  | @attached _ s _ leads =>
    have inOwner := mem_choresOfRedirects leads member
    cases g with
    | leaf number command r =>
      rw [Graph.chores, List.mem_append, List.mem_cons]
      exact .inr (.inr inOwner)
    | pipe number left right r =>
      rw [Graph.chores, List.mem_append, List.mem_cons, List.mem_append, List.mem_append]
      exact .inr (.inr (.inr (.inr inOwner)))
    | group number label members r =>
      rw [Graph.chores, List.mem_append, List.mem_append]
      exact .inr (.inr inOwner)
    | unknown number name => cases s <;> cases leads
    | stray held => cases s <;> cases leads

/-- The chores of a node that stands in a graph are chores of the graph. -/
theorem mem_chores_of_stands {root : Graph} (stands : root.Stands g above) :
    ∀ c ∈ g.chores above, c ∈ root.chores [] := by
  induction stands with
  | root => exact fun c member => member
  | left parent ih => exact fun c member => ih c (mem_chores_of_child .left member)
  | right parent ih => exact fun c member => ih c (mem_chores_of_child .right member)
  | member parent isMember ih =>
    exact fun c member => ih c (mem_chores_of_child (.member isMember) member)
  | attached parent leads ih =>
    exact fun c member => ih c (mem_chores_of_child (.attached leads) member)

private theorem start_redirects {leaf : Graph} {l : Lineage}
    (member : .start leaf l ∈ Graph.choresOfRedirects g above g.redirects) :
    ∃ t h, g.Child t h ∧ .start leaf l ∈ h.chores ((t, g) :: above) := by
  have target (s : Stream)
      (member : .start leaf l ∈ Graph.choresOfTarget? ((.attached s, g) :: above)
        (g.redirects.get s)) :
      ∃ t h, g.Child t h ∧ .start leaf l ∈ h.chores ((t, g) :: above) := by
    cases found : g.redirects.attached? s with
    | none =>
      rw [choresOfTarget?_of_none _ found] at member
      cases member
    | some h =>
      rw [choresOfTarget?_of_attached _ found] at member
      exact ⟨_, h, .attached found, member⟩
  rw [choresOfRedirects_eq, List.mem_append, List.mem_append] at member
  rcases member with member | member | member
  · exact target .stdin member
  · exact target .stdout member
  · exact target .stderr member

private theorem start_members {number : Nat} {label : Label} {all : List Graph} {r : Redirects}
    {members : List Graph} (index : Nat)
    (here : ∀ i g, members[i]? = some g → all[index + i]? = some g) {leaf : Graph} {l : Lineage}
    (member : .start leaf l ∈ Graph.choresOfMembers (.group number label all r) above index
      members) :
    ∃ t h, (Graph.group number label all r).Child t h ∧
      .start leaf l ∈ h.chores ((t, .group number label all r) :: above) := by
  induction members generalizing index with
  | nil => cases member
  | cons g rest ih =>
    rw [Graph.choresOfMembers, List.mem_append] at member
    rcases member with first | later
    · exact ⟨_, g, .member (here 0 g rfl), first⟩
    · refine ih (index + 1) (fun i h found => ?_) later
      have shifted := here (i + 1) h found
      rw [← Nat.add_assoc, Nat.add_right_comm] at shifted
      exact shifted

/-- A node starts itself, if it is a leaf, and what hangs below it. -/
theorem start_cases {leaf : Graph} {l : Lineage} (member : .start leaf l ∈ g.chores above) :
    (leaf = g ∧ l = above ∧ g.isLeaf) ∨
      ∃ t h, g.Child t h ∧ .start leaf l ∈ h.chores ((t, g) :: above) := by
  cases g with
  | leaf number command r =>
    rw [Graph.chores, List.mem_append, List.mem_cons] at member
    rcases member with member | member | member
    · exact absurd member (not_start_ofRedirects leaf l)
    · cases member
      exact .inl ⟨rfl, rfl, rfl⟩
    · exact .inr (start_redirects member)
  | pipe number left right r =>
    rw [Graph.chores, List.mem_append, List.mem_cons, List.mem_append, List.mem_append] at member
    rcases member with member | member | member | member | member
    · exact absurd member (not_start_ofRedirects leaf l)
    · cases member
    · exact .inr ⟨_, left, .left, member⟩
    · exact .inr ⟨_, right, .right, member⟩
    · exact .inr (start_redirects member)
  | group number label members r =>
    rw [Graph.chores, List.mem_append, List.mem_append] at member
    rcases member with member | member | member
    · exact absurd member (not_start_ofRedirects leaf l)
    · exact .inr (start_members 0 (fun i g found => by rw [Nat.zero_add]; exact found) member)
    · exact .inr (start_redirects member)
  | unknown number name => simp [Graph.chores] at member
  | stray held => simp [Graph.chores] at member

/-- Below a node that stands in a graph, only leaves that stand there are started. -/
private theorem starts {root : Graph} (stands : root.Stands g above) {leaf : Graph} {l : Lineage}
    (member : .start leaf l ∈ g.chores above) : root.Stands leaf l ∧ leaf.isLeaf := by
  induction g using Graph.child_induction generalizing above with
  | step g ih =>
    rcases start_cases member with ⟨rfl, rfl, isLeaf⟩ | ⟨t, h, child, later⟩
    · exact ⟨stands, isLeaf⟩
    · exact ih t h child (stands.child child) later

end Chore

/-- The leaf occurrences of a graph are all leaves that stand in it, with the nodes above them. -/
theorem Graph.mem_occurrences {g leaf : Graph} {l : Lineage} :
    (leaf, l) ∈ g.occurrences ↔ g.Stands leaf l ∧ leaf.isLeaf := by
  constructor
  · intro member
    obtain ⟨chore, known, isLeaf⟩ := List.mem_filterMap.mp member
    have start : chore = .start leaf l := by
      cases chore <;> cases isLeaf
      rfl
    exact Chore.starts .root (start ▸ known)
  · rintro ⟨stands, isLeaf⟩
    have own : .start leaf l ∈ leaf.chores l := by
      cases leaf <;> first | (cases isLeaf; done) | simp [Graph.chores]
    exact List.mem_filterMap.mpr ⟨_, Chore.mem_chores_of_stands stands _ own, rfl⟩

/-- No leaf occurrence comes up twice. -/
theorem Graph.nodup_occurrences (g : Graph) : g.occurrences.Nodup := by
  have same : g.occurrences.map (fun o => Claim.near o.2.place .stdin) =
      Chore.places (g.chores []) := by
    rw [occurrences, List.map_filterMap]
    congr 1
    funext chore
    cases chore <;> rfl
  have distinct := (Chore.apart_leaves g []).distinct
  rw [← same] at distinct
  exact List.Pairwise.of_map _ (fun o o' differ same => differ (by rw [same])) distinct

/-- The leaves of a graph, each with the nodes above it, of which a claim decides a stream. -/
def Graph.takers (g : Graph) (s : Stream) (c : Claim) : List (Graph × Lineage) :=
  g.occurrences.filter fun o => o.1.nearest o.2 s = some c

end Pipework
