import Mathlib.Data.List.Forall2
import Pipework.Proofs.Graph.Regrouping
import Pipework.Proofs.Wiring.Distinct
import Pipework.Proofs.Wiring.Roster

/-!
# The chores of a regrouped pipe

The chores of a graph are the same wherever the graph stands, only at other places: below some nodes, the
place of these nodes comes after every place in the graph. A stream that a claim inside the graph decides
is decided by the same claim there; any other stream comes from the nodes above.

Three graphs in one pipe stand at other places when the right two are joined first instead of the left
two. `Claim.regroup` says where each claim goes. Each chore of one pipe goes to a chore of the other
(`Chore.Moved`), in the same order but for the pipes of the two pipe nodes (`Regrouped.chores`). So what one
graph makes goes to what the other makes, and the nearest claim on every stream of every command to the
nearest claim on that stream.
-/

namespace Pipework

/-! ## A graph below other nodes -/

theorem Lineage.place_append (l above : Lineage) :
    Lineage.place (l ++ above) = l.place ++ above.place := List.map_append

/-- A claim of a graph when the root of the graph stands at a place. -/
def Claim.below (q : Place) : Claim → Claim
  | near place s => near (place ++ q) s
  | far place s => far (place ++ q) s
  | writing place => writing (place ++ q)
  | reading place => reading (place ++ q)

/-- What a making is with other claims. -/
def Making.map (f : Claim → Claim) : Making → Making
  | pipe reading writing => pipe (f reading) (f writing)
  | file name mode claim => file name mode (f claim)
  | given value claim => given value (f claim)

/-- A chore of a graph when the graph stands below some nodes. -/
def Chore.below (above : Lineage) : Chore → Chore
  | redirect place s target => redirect (place ++ above.place) s target
  | edge place => edge (place ++ above.place)
  | start leaf l => start leaf (l ++ above)
  | refuse e => refuse e

namespace Chore

variable (l above : Lineage)

theorem ofRedirects_below (place : Place) (r : Redirects) :
    ofRedirects (place ++ above.place) r = (ofRedirects place r).map (below above) := by
  rw [ofRedirects, ofRedirects, List.map_map]
  rfl

private theorem choresOfRedirects_below (owner : Graph) (r : Redirects)
    (attached : ∀ s g, r.attached? s = some g → ∀ l : Lineage,
      g.chores (l ++ above) = (g.chores l).map (below above)) :
    Graph.choresOfRedirects owner (l ++ above) r =
      (Graph.choresOfRedirects owner l r).map (below above) := by
  have target (s : Stream) :
      Graph.choresOfTarget? ((.attached s, owner) :: (l ++ above)) (r.get s) =
        (Graph.choresOfTarget? ((.attached s, owner) :: l) (r.get s)).map (below above) := by
    cases found : r.attached? s with
    | none =>
      rw [choresOfTarget?_of_none _ found, choresOfTarget?_of_none _ found]
      rfl
    | some g =>
      rw [choresOfTarget?_of_attached _ found, choresOfTarget?_of_attached _ found]
      exact attached s g found ((.attached s, owner) :: l)
  rw [choresOfRedirects_eq, choresOfRedirects_eq, target, target, target, List.map_append, List.map_append]

private theorem choresOfMembers_below (owner : Graph) (index : Nat) (members : List Graph)
    (inMembers : ∀ g ∈ members, ∀ l : Lineage, g.chores (l ++ above) = (g.chores l).map (below above)) :
    Graph.choresOfMembers owner (l ++ above) index members =
      (Graph.choresOfMembers owner l index members).map (below above) := by
  induction members generalizing index with
  | nil => rfl
  | cons g rest ih =>
    have here := inMembers g List.mem_cons_self ((.member index, owner) :: l)
    rw [List.cons_append] at here
    rw [Graph.choresOfMembers, Graph.choresOfMembers, List.map_append, here,
      ih (index + 1) fun g member => inMembers g (List.mem_cons_of_mem _ member)]

end Chore

/-- Below other nodes, a graph has the same chores, at places below these nodes. -/
theorem Graph.chores_below (g : Graph) (l above : Lineage) :
    g.chores (l ++ above) = (g.chores l).map (Chore.below above) := by
  induction g using Graph.induction generalizing l with
  | leaf number command r attached =>
    rw [chores, chores, Lineage.place_append, Chore.ofRedirects_below,
      Chore.choresOfRedirects_below l above _ r attached, List.map_append, List.map_cons]
    rfl
  | pipe number left right r inLeft inRight attached =>
    have onLeft := inLeft ((.left, .pipe number left right r) :: l)
    have onRight := inRight ((.right, .pipe number left right r) :: l)
    rw [List.cons_append] at onLeft onRight
    rw [chores, chores, Lineage.place_append, Chore.ofRedirects_below, onLeft, onRight,
      Chore.choresOfRedirects_below l above _ r attached]
    simp only [List.map_append, List.map_cons]
    rfl
  | group number label members r inMembers attached =>
    rw [chores, chores, Lineage.place_append, Chore.ofRedirects_below,
      Chore.choresOfRedirects_below l above _ r attached,
      Chore.choresOfMembers_below l above _ 0 members inMembers, List.map_append, List.map_append]
  | unknown number name => rfl
  | stray held => rfl

/-- A claim inside a graph comes before any claim of the nodes above the graph. -/
theorem Lineage.claim_append (l above : Lineage) (s : Stream) :
    Lineage.claim (l ++ above) s = ((l.claim s).map (Claim.below above.place)).or (above.claim s) := by
  induction l with
  | nil => rfl
  | cons first l ih =>
    obtain ⟨turn, parent⟩ := first
    have nearest : parent.nearest (l ++ above) s =
        ((parent.nearest l s).map (Claim.below above.place)).or (above.claim s) := by
      rw [Graph.nearest, Graph.nearest, ih, Graph.ownClaim, Graph.ownClaim, place_append]
      cases parent.redirects.get s <;> rfl
    rw [List.cons_append]
    cases turn with
    | left =>
      rw [claim_left, claim_left, place_append]
      split
      · rfl
      · exact nearest
    | right =>
      rw [claim_right, claim_right, place_append]
      split
      · rfl
      · exact nearest
    | member index => rw [claim_member, claim_member, nearest]
    | attached t =>
      rw [claim_attached, claim_attached, place_append]
      split
      · rfl
      · exact ih

theorem Graph.nearest_append (g : Graph) (l above : Lineage) (s : Stream) :
    g.nearest (l ++ above) s = ((g.nearest l s).map (Claim.below above.place)).or (above.claim s) := by
  rw [nearest, nearest, Lineage.claim_append, ownClaim, ownClaim, Lineage.place_append]
  cases g.redirects.get s <;> rfl

/-! ## Two groupings -/

/-- The turns from the root of a pipe whose left two graphs are joined, as turns from the root of the pipe
whose right two graphs are joined. -/
def Turn.regroup : List Turn → List Turn
  | .left :: .left :: rest => .left :: rest
  | .left :: .right :: rest => .right :: .left :: rest
  | .right :: rest => .right :: .right :: rest
  | turns => turns

/-- Where a place of one pipe is in the other. -/
def Place.regroup (place : Place) : Place := (Turn.regroup (List.reverse place)).reverse

/-- Where the pipe of a pipe node is in the other pipe: the outer one becomes the inner one, and the inner
one the outer. -/
def Place.regroupEdge (place : Place) : Place :=
  if place = [] then [.right] else if place = [.left] then [] else place.regroup

/-- A claim of one pipe as a claim of the other. -/
def Claim.regroup : Claim → Claim
  | near place s => near place.regroup s
  | far place s => far place.regroup s
  | writing place => writing place.regroupEdge
  | reading place => reading place.regroupEdge

/-- A chore of one pipe and the same chore in the other. Leaves that were made for the same command are as
good as one. -/
inductive Chore.Moved : Chore → Chore → Prop
  | redirect (place : Place) (s : Stream) (target : Target) :
    Moved (.redirect place s target) (.redirect place.regroup s target)
  | edge (place : Place) : Moved (.edge place) (.edge place.regroupEdge)
  | start {leaf leaf' : Graph} {l l' : Lineage} (alike : leaf.Alike leaf')
    (nearest : ∀ s, leaf'.nearest l' s = (leaf.nearest l s).map Claim.regroup) :
    Moved (.start leaf l) (.start leaf' l')
  | refuse (e : BuildError) : Moved (.refuse e) (.refuse e)

/-! ## Places -/

/-- A part below some nodes of one pipe, which stands below others in the other pipe. -/
structure Lineage.Moved (above above' : Lineage) : Prop where
  place : ∀ place : Place, Place.regroup (place ++ above.place) = place ++ above'.place
  edge : ∀ place : Place, Place.regroupEdge (place ++ above.place) = place ++ above'.place
  claim : ∀ s, above'.claim s = (above.claim s).map Claim.regroup

namespace Lineage.Moved

/-- Only the two pipe nodes themselves are exceptions. -/
theorem of_place {above above' : Lineage} (long : above.place ≠ []) (other : above.place ≠ [.left])
    (place : ∀ place : Place, Place.regroup (place ++ above.place) = place ++ above'.place)
    (claim : ∀ s, above'.claim s = (above.claim s).map Claim.regroup) : above.Moved above' where
  place := place
  edge p := by
    have notNil : p ++ above.place ≠ [] := by simp [long]
    have notLeft : p ++ above.place ≠ [.left] := by
      intro same
      rcases List.append_eq_singleton_iff.mp same with ⟨-, isLeft⟩ | ⟨-, isNil⟩
      · exact other isLeft
      · exact long isNil
    rw [Place.regroupEdge, if_neg notNil, if_neg notLeft, place]
  claim := claim

variable {above above' : Lineage} (moved : above.Moved above')
include moved

theorem claim_below (c : Claim) : (c.below above.place).regroup = c.below above'.place := by
  cases c <;> simp [Claim.below, Claim.regroup, moved.place, moved.edge]

theorem nearest {g g' : Graph} (alike : g.Alike g') (l : Lineage) (s : Stream) :
    g'.nearest (l ++ above') s = (g.nearest (l ++ above) s).map Claim.regroup := by
  have same : g'.nearest l s = g.nearest l s := by cases alike <;> rfl
  rw [Graph.nearest_append, Graph.nearest_append, same, moved.claim, Option.map_or, Option.map_map]
  congr 2
  funext c
  exact (moved.claim_below c).symm

/-- The chores of a part move with it. -/
theorem chore (c : Chore) : (c.below above).Moved (c.below above') := by
  cases c with
  | redirect place s target =>
    have there := Chore.Moved.redirect (place ++ above.place) s target
    rw [moved.place] at there
    exact there
  | edge place =>
    have there := Chore.Moved.edge (place ++ above.place)
    rw [moved.edge] at there
    exact there
  | start leaf l => exact .start (.refl leaf) (moved.nearest (.refl leaf) l)
  | refuse e => exact .refuse e

theorem chores (chores : List Chore) :
    List.Forall₂ Chore.Moved (chores.map (Chore.below above)) (chores.map (Chore.below above')) := by
  induction chores with
  | nil => exact .nil
  | cons c rest ih => exact .cons (moved.chore c) ih

theorem part {g g' : Graph} (alike : g.Alike g') :
    List.Forall₂ Chore.Moved ((g.chores []).map (Chore.below above)) ((g'.chores []).map (Chore.below above')) := by
  cases alike with
  | refl => exact moved.chores _
  | leaf n n' command =>
    exact .cons (.start (.leaf n n' command) (moved.nearest (.leaf n n' command) [])) .nil

end Lineage.Moved

/-! ## The two lists of chores -/

theorem Chore.choresOfTarget?_below (above : Lineage) (t : Option (Labelled Target)) :
    Graph.choresOfTarget? above t = (Graph.choresOfTarget? [] t).map (below above) := by
  cases t with
  | none => rfl
  | some t =>
    obtain ⟨label, target⟩ := t
    cases target with
    | graph g => exact g.chores_below [] above
    | _ => rfl

namespace Graph

/-- A pipe without redirects makes its pipe and starts its parts. -/
theorem chores_bare_pipe (k : Nat) (a b : Graph) (above : Lineage) :
    (Graph.pipe k a b {}).chores above =
      .edge above.place :: ((a.chores []).map (Chore.below ((.left, .pipe k a b {}) :: above)) ++
        (b.chores []).map (Chore.below ((.right, .pipe k a b {}) :: above))) := by
  have onLeft := a.chores_below [] ((.left, .pipe k a b {}) :: above)
  have onRight := b.chores_below [] ((.right, .pipe k a b {}) :: above)
  rw [List.nil_append] at onLeft onRight
  have none : choresOfRedirects (.pipe k a b {}) above {} = [] := rfl
  rw [chores, onLeft, onRight, none, List.append_nil]
  rfl

private theorem moved_attached (number number' : Nat) (left right left' right' : Graph) (r : Redirects) :
    List.Forall₂ Chore.Moved (choresOfRedirects (.pipe number left right r) [] r)
      (choresOfRedirects (.pipe number' left' right' r) [] r) := by
  have one (s : Stream) : List.Forall₂ Chore.Moved
      (choresOfTarget? [(.attached s, .pipe number left right r)] (r.get s))
      (choresOfTarget? [(.attached s, .pipe number' left' right' r)] (r.get s)) := by
    rw [Chore.choresOfTarget?_below, Chore.choresOfTarget?_below [(.attached s, .pipe number' left' right' r)]]
    refine Lineage.Moved.chores (.of_place (by simp [Lineage.place]) (by simp [Lineage.place]) ?_ ?_) _
    · intro place
      simp [Lineage.place, Place.regroup, Turn.regroup]
    · intro t
      rw [Lineage.claim_attached, Lineage.claim_attached]
      split <;> rfl
  rw [Chore.choresOfRedirects_eq, Chore.choresOfRedirects_eq]
  exact List.rel_append (one .stdin) (List.rel_append (one .stdout) (one .stderr))

private theorem moved_root (r : Redirects) :
    List.Forall₂ Chore.Moved (Chore.ofRedirects [] r) (Chore.ofRedirects [] r) := by
  rw [Chore.ofRedirects, List.forall₂_map_left_iff, List.forall₂_map_right_iff]
  exact List.forall₂_same.mpr fun item _ => .redirect [] item.1 item.2.it

/-- A node without redirects passes on what comes from above. -/
theorem nearest_bare (k : Nat) (a b : Graph) (above : Lineage) (s : Stream) :
    (Graph.pipe k a b {}).nearest above s = above.claim s := by cases s <;> rfl

/-- At the root only the redirects have a say, and their claims stay where they are. -/
private theorem nearest_root (number number' : Nat) (left right left' right' : Graph) (r : Redirects)
    (s : Stream) : (Graph.pipe number' left' right' r).nearest [] s =
      ((Graph.pipe number left right r).nearest [] s).map Claim.regroup := by
  rw [nearest, nearest, ownClaim, ownClaim]
  change ((r.get s).map _).or none = (((r.get s).map _).or none).map Claim.regroup
  cases r.get s <;> rfl

section Pipe

variable {a a' b b' c c' : Graph} (number k k' : Nat) (r : Redirects)

/-- The left two graphs joined first. -/
private abbrev leftFirst (number k : Nat) (a b c : Graph) (r : Redirects) : Graph :=
  .pipe number (.pipe k a b {}) c r

/-- The right two graphs joined first. -/
private abbrev rightFirst (number k : Nat) (a b c : Graph) (r : Redirects) : Graph :=
  .pipe number a (.pipe k b c {}) r

private theorem moved_first : Lineage.Moved
    [(.left, .pipe k a b {}), (.left, leftFirst number k a b c r)]
    [(.left, rightFirst number k' a' b' c' r)] := by
  refine .of_place (by simp [Lineage.place]) (by simp [Lineage.place]) (fun place => ?_) fun s => ?_
  · simp [Lineage.place, Place.regroup, Turn.regroup]
  · have root := nearest_root number number (.pipe k a b {}) c a' (.pipe k' b' c' {}) r
    rw [Lineage.claim_left, Lineage.claim_left, nearest_bare, Lineage.claim_left, root]
    split <;> rfl

private theorem moved_second : Lineage.Moved
    [(.right, .pipe k a b {}), (.left, leftFirst number k a b c r)]
    [(.left, .pipe k' b' c' {}), (.right, rightFirst number k' a' b' c' r)] := by
  refine .of_place (by simp [Lineage.place]) (by simp [Lineage.place]) (fun place => ?_) fun s => ?_
  · simp [Lineage.place, Place.regroup, Turn.regroup]
  · have root := nearest_root number number (.pipe k a b {}) c a' (.pipe k' b' c' {}) r
    rw [Lineage.claim_left, Lineage.claim_right, nearest_bare, nearest_bare, Lineage.claim_left,
      Lineage.claim_right, root]
    cases s <;> rfl

private theorem moved_third : Lineage.Moved
    [(.right, leftFirst number k a b c r)]
    [(.right, .pipe k' b' c' {}), (.right, rightFirst number k' a' b' c' r)] := by
  refine .of_place (by simp [Lineage.place]) (by simp [Lineage.place]) (fun place => ?_) fun s => ?_
  · simp [Lineage.place, Place.regroup, Turn.regroup]
  · have root := nearest_root number number (.pipe k a b {}) c a' (.pipe k' b' c' {}) r
    rw [Lineage.claim_right, Lineage.claim_right, nearest_bare, Lineage.claim_right, root]
    split <;> rfl

private theorem chores_leftFirst : (leftFirst number k a b c r).chores [] =
    Chore.ofRedirects [] r ++ .edge [] :: .edge [.left] ::
      ((a.chores []).map (Chore.below [(.left, .pipe k a b {}), (.left, leftFirst number k a b c r)]) ++
        ((b.chores []).map (Chore.below [(.right, .pipe k a b {}), (.left, leftFirst number k a b c r)]) ++
          ((c.chores []).map (Chore.below [(.right, leftFirst number k a b c r)]) ++
            choresOfRedirects (leftFirst number k a b c r) [] r))) := by
  have onRight := c.chores_below [] [(.right, leftFirst number k a b c r)]
  rw [List.nil_append] at onRight
  rw [chores, chores_bare_pipe, onRight, List.cons_append, List.append_assoc]
  rfl

private theorem chores_rightFirst : (rightFirst number k a b c r).chores [] =
    Chore.ofRedirects [] r ++ .edge [] ::
      ((a.chores []).map (Chore.below [(.left, rightFirst number k a b c r)]) ++
        .edge [.right] ::
          ((b.chores []).map (Chore.below [(.left, .pipe k b c {}), (.right, rightFirst number k a b c r)]) ++
            ((c.chores []).map (Chore.below [(.right, .pipe k b c {}), (.right, rightFirst number k a b c r)]) ++
              choresOfRedirects (rightFirst number k a b c r) [] r))) := by
  have onLeft := a.chores_below [] [(.left, rightFirst number k a b c r)]
  rw [List.nil_append] at onLeft
  rw [chores, chores_bare_pipe, onLeft, List.cons_append, List.append_assoc]
  rfl

end Pipe

/-- The chores of the two pipes are the same but for their places, and for where the pipe of the inner pipe
node comes. -/
theorem Regrouped.chores {l r : Graph} (regrouped : l.Regrouped r) : ∃ own first rest first' rest',
    l.chores [] = own ++ .edge [] :: .edge [.left] :: (first ++ rest) ∧
    r.chores [] = own ++ .edge [] :: (first' ++ .edge [.right] :: rest') ∧
    List.Forall₂ Chore.Moved own own ∧ List.Forall₂ Chore.Moved first first' ∧
    List.Forall₂ Chore.Moved rest rest' := by
  obtain ⟨first, second, third, number, k, k', r⟩ := regrouped
  refine ⟨_, _, _, _, _, chores_leftFirst number k r, chores_rightFirst number k' r, moved_root r,
    (moved_first number k k' r).part first, ?_⟩
  exact List.rel_append ((moved_second number k k' r).part second)
    (List.rel_append ((moved_third number k k' r).part third) (moved_attached number number _ _ _ _ r))

end Graph

/-! ## What moved chores have in common -/

namespace Chore

variable {c c' : Chore} {chores chores' : List Chore}

theorem Moved.making? (moved : c.Moved c') : c'.making? = c.making?.map (Making.map Claim.regroup) := by
  cases moved with
  | redirect place s target =>
    cases target with
    | file path append =>
      obtain ⟨label, value⟩ := path
      cases value <;> rfl
    | buffer held | graph g | endpoint => cases s <;> rfl
    | stream held =>
      simp only [Chore.making?, Target.making?, Option.map_map]
      rfl
    | unknown name | stray held => rfl
  | edge place | start alike nearest | refuse e => rfl

theorem makings_of_moved (moved : List.Forall₂ Moved chores chores') :
    makings chores' = (makings chores).map (Making.map Claim.regroup) := by
  induction moved with
  | nil => rfl
  | @cons c c' rest rest' moved later ih =>
    rw [makings, makings, List.map_filterMap, List.filterMap_cons, List.filterMap_cons, moved.making?]
    rw [makings, makings, List.map_filterMap] at ih
    rw [ih]

end Chore

/-- What one pipe makes is what the other makes, for the claims that stand there, but for the order in which the
pipes of the two pipe nodes are made. -/
theorem Graph.Regrouped.makings {l r : Graph} (regrouped : l.Regrouped r) :
    ((Chore.makings (l.chores [])).map (Making.map Claim.regroup)).Perm (Chore.makings (r.chores [])) := by
  obtain ⟨own, first, rest, first', rest', left, right, ownMoved, firstMoved, restMoved⟩ := regrouped.chores
  have edge (place : Place) (chores : List Chore) : Chore.makings (.edge place :: chores) =
      .pipe (.reading place) (.writing place) :: Chore.makings chores := rfl
  rw [left, right]
  simp only [Chore.makings_append, edge, List.map_append, List.map_cons,
    ← Chore.makings_of_moved ownMoved, ← Chore.makings_of_moved firstMoved, ← Chore.makings_of_moved restMoved]
  refine List.Perm.append_left _ ((List.Perm.swap _ _ _).trans (.cons _ ?_))
  exact List.perm_middle.symm

/-- The leaves of the two pipes are the same, in the same order, and each of their streams is decided by the
same claim. -/
theorem Graph.Regrouped.occurrences {l r : Graph} (regrouped : l.Regrouped r) :
    List.Forall₂ (fun o o' : Graph × Lineage => o.1.Alike o'.1 ∧
      ∀ s, o'.1.nearest o'.2 s = (o.1.nearest o.2 s).map Claim.regroup) l.occurrences r.occurrences := by
  obtain ⟨own, first, rest, first', rest', left, right, ownMoved, firstMoved, restMoved⟩ := regrouped.chores
  have edge (place : Place) (chores : List Chore) :
      (Chore.edge place :: chores).filterMap Chore.leaf? = chores.filterMap Chore.leaf? := rfl
  have part {chores chores' : List Chore} (moved : List.Forall₂ Chore.Moved chores chores') :
      List.Forall₂ (fun o o' : Graph × Lineage => o.1.Alike o'.1 ∧
        ∀ s, o'.1.nearest o'.2 s = (o.1.nearest o.2 s).map Claim.regroup)
        (chores.filterMap Chore.leaf?) (chores'.filterMap Chore.leaf?) := by
    refine List.rel_filterMap (fun c c' moved => ?_) moved
    cases moved with
    | start alike nearest => exact .some ⟨alike, nearest⟩
    | _ => exact .none
  rw [Graph.occurrences, Graph.occurrences, left, right]
  simp only [List.filterMap_append, edge]
  exact List.rel_append (part ownMoved) (List.rel_append (part firstMoved) (part restMoved))

/-! ## The ends for the caller -/

theorem scanEndpoints_cons {g : Graph} (isNode : g.stray? = none) (seen : List Stream) (rest : List Graph) :
    scanEndpoints seen (g :: rest) =
      (claimEndpoints seen g.redirects.items >>= fun seen => scanEndpoints seen rest) := by
  cases g <;> first | rfl | cases isNode

/-- Nodes that ask for the same ends, whatever was asked for before. -/
def SameAsks (nodes nodes' : List Graph) : Prop := ∀ seen, scanEndpoints seen nodes = scanEndpoints seen nodes'

namespace SameAsks

variable {nodes nodes' : List Graph}

theorem prepend (common : List Graph) (same : SameAsks nodes nodes') :
    SameAsks (common ++ nodes) (common ++ nodes') := by
  induction common with
  | nil => exact same
  | cons g rest ih =>
    intro seen
    cases g with
    | stray held => rfl
    | _ =>
      rw [List.cons_append, List.cons_append, scanEndpoints_cons rfl, scanEndpoints_cons rfl]
      exact congrArg _ (funext ih)

/-- A pipe asks for what its redirects ask for. -/
theorem pipe (number number' : Nat) (left right left' right' : Graph) (r : Redirects)
    (same : SameAsks nodes nodes') :
    SameAsks (.pipe number left right r :: nodes) (.pipe number' left' right' r :: nodes') := by
  intro seen
  rw [scanEndpoints_cons rfl, scanEndpoints_cons rfl]
  exact congrArg _ (funext same)

theorem alike {g h : Graph} (alike : g.Alike h) (same : SameAsks nodes nodes') :
    SameAsks (g.nodes ++ nodes) (h.nodes ++ nodes') := by
  cases alike with
  | refl => exact same.prepend _
  | leaf n n' command => exact same

end SameAsks

/-- The two pipes ask for the same ends. -/
theorem Graph.Regrouped.checkEndpoints {l r : Graph} (regrouped : l.Regrouped r) :
    checkEndpoints r = checkEndpoints l := by
  obtain ⟨first, second, third, number, k, k', own⟩ := regrouped
  rename_i a a' b b' c c'
  have left : (Graph.pipe number (.pipe k a b {}) c own).nodes = .pipe number (.pipe k a b {}) c own ::
      .pipe k a b {} :: (a.nodes ++ (b.nodes ++ (c.nodes ++ nodesOfRedirects own))) := by
    simp [nodes, nodesOfRedirects, nodesOfTarget?]
  have right : (Graph.pipe number a' (.pipe k' b' c' {}) own).nodes = .pipe number a' (.pipe k' b' c' {}) own ::
      (a'.nodes ++ .pipe k' b' c' {} :: (b'.nodes ++ (c'.nodes ++ nodesOfRedirects own))) := by
    simp [nodes, nodesOfRedirects, nodesOfTarget?]
  have rest : SameAsks (b.nodes ++ (c.nodes ++ nodesOfRedirects own)) (b'.nodes ++ (c'.nodes ++ nodesOfRedirects own)) :=
    .alike second (.alike third fun _ => rfl)
  have inner : SameAsks (a.nodes ++ (b.nodes ++ (c.nodes ++ nodesOfRedirects own)))
      (a'.nodes ++ .pipe k' b' c' {} :: (b'.nodes ++ (c'.nodes ++ nodesOfRedirects own))) :=
    .alike first rest
  rw [Pipework.checkEndpoints, Pipework.checkEndpoints, left, right]
  exact (SameAsks.pipe number number _ _ _ _ own inner []).symm

end Pipework
