import Pipework.Proofs.Graph.Plain
import Pipework.Proofs.Wiring.Regrouping

/-!
# A graph with a redirect more

A redirect that leads to no graph, and is put on a node of which the stream is free, adds one chore to those of the
graph. All the others stay as they are (`Chore.Fed`), but that a stream which came from above the graph comes from the
new redirect now. A graph that one of the node's own redirects leads to is not inside the node: it gets what comes
from above the node as before. So it has to be asked that what such a graph would get is the far end of its own pipe
(`Graph.Redirected.gains`). Whoever stands on the left of a pipe gains at the left end what the pipe gains
(`Graph.Gains.pipe`).
-/

namespace Pipework

/-- The same chore in a graph in which some streams come from a claim that came from above before. -/
inductive Chore.Fed (claim : Stream → Option Claim) : Chore → Chore → Prop
  | redirect (place : Place) (s : Stream) (target : Target) :
    Fed claim (.redirect place s target) (.redirect place s target)
  | edge (place : Place) : Fed claim (.edge place) (.edge place)
  | start {leaf leaf' : Graph} {l l' : Lineage} (command : leaf'.commandOf = leaf.commandOf)
      (nearest : ∀ t, leaf'.nearest l' t = (leaf.nearest l t).or (claim t)) :
    Fed claim (.start leaf l) (.start leaf' l')
  | refuse (e : BuildError) : Fed claim (.refuse e) (.refuse e)

/-- What a node gets from a redirect of one of its streams, and nothing for the other streams. -/
def Claim.only (place : Place) (s : Stream) : Stream → Option Claim :=
  fun t => if t = s then some (.near place s) else none

section Below

variable {claim claim' : Stream → Option Claim} {above above' : Lineage} {c c' : Chore}

/-- A part may stand below nodes from which other claims come. -/
theorem Chore.Fed.below (fed : Fed claim c c') (place : above'.place = above.place)
    (claims : ∀ t, ((claim t).map (Claim.below above.place)).or (above'.claim t) = (above.claim t).or (claim' t)) :
    Fed claim' (c.below above) (c'.below above') := by
  cases fed with
  | redirect q s target =>
    rw [Chore.below, Chore.below, place]
    exact .redirect _ s target
  | edge q =>
    rw [Chore.below, Chore.below, place]
    exact .edge _
  | @start leaf leaf' l l' command nearest =>
    refine .start command fun t => ?_
    rw [Graph.nearest_append, Graph.nearest_append, nearest, place, Option.map_or, Option.or_assoc, claims,
      Option.or_assoc]
  | refuse e => exact .refuse e

theorem Chore.Fed.all_below {chores chores' : List Chore} (fed : List.Forall₂ (Chore.Fed claim) chores chores')
    (place : above'.place = above.place)
    (claims : ∀ t, ((claim t).map (Claim.below above.place)).or (above'.claim t) = (above.claim t).or (claim' t)) :
    List.Forall₂ (Chore.Fed claim') (chores.map (Chore.below above)) (chores'.map (Chore.below above')) := by
  rw [List.forall₂_map_left_iff, List.forall₂_map_right_iff]
  exact fed.imp fun _ _ one => one.below place claims

end Below

namespace Graph

/-- Graphs that are alike do the same. -/
theorem Alike.fed {g g' : Graph} (alike : g.Alike g') :
    List.Forall₂ (Chore.Fed fun _ => none) (g.chores []) (g'.chores []) := by
  cases alike with
  | refl =>
    refine List.forall₂_same.mpr fun c _ => ?_
    cases c with
    | start leaf l => exact .start rfl fun t => Option.or_none.symm
    | redirect place s target => exact .redirect place s target
    | edge place => exact .edge place
    | refuse e => exact .refuse e
  | leaf n n' command =>
    obtain ⟨label, value⟩ := command
    exact .cons (.start (by cases value <;> rfl) fun t => by cases t <;> rfl) .nil

/-- A part that is the same below both nodes. -/
private theorem fed_part {g g' : Graph} (alike : g.Alike g') {above above' : Lineage} {claim : Stream → Option Claim}
    (place : above'.place = above.place) (claims : ∀ t, above'.claim t = (above.claim t).or (claim t)) :
    List.Forall₂ (Chore.Fed claim) (g.chores above) (g'.chores above') := by
  have here := g.chores_below [] above
  have there := g'.chores_below [] above'
  rw [List.nil_append] at here there
  rw [here, there]
  exact Chore.Fed.all_below alike.fed place fun t => claims t

/-- One graph has a redirect more than another: on a stream of the node at a place, for what comes from above the
graph. Before it is served there are only pipes to be made. -/
structure Gains (place : Place) (s : Stream) (target : Target) (g g' : Graph) : Prop where
  chores : ∃ (edges : List Place) (rest rest' : List Chore), g.chores [] = edges.map .edge ++ rest ∧
    g'.chores [] = edges.map .edge ++ .redirect place s target :: rest' ∧
    List.Forall₂ (Chore.Fed (Claim.only place s)) rest rest'

/-- The members of a group. -/
private theorem fed_members {g g' : Graph} {s : Stream}
    (nearest : ∀ u, g'.nearest [] u = (g.nearest [] u).or (Claim.only [] s u)) (members : List Graph) (index : Nat) :
    List.Forall₂ (Chore.Fed (Claim.only [] s)) (choresOfMembers g [] index members)
      (choresOfMembers g' [] index members) := by
  induction members generalizing index with
  | nil => exact .nil
  | cons h rest ih =>
    rw [choresOfMembers, choresOfMembers]
    refine List.rel_append (fed_part (.refl h) ?_ fun u => ?_) (ih (index + 1))
    · rfl
    · rw [Lineage.claim_member, Lineage.claim_member]
      exact nearest u

private theorem items_eq (r : Redirects) : r.items = ((r.get .stdin).map (Stream.stdin, ·)).toList ++
    (((r.get .stdout).map (Stream.stdout, ·)).toList ++ ((r.get .stderr).map (Stream.stderr, ·)).toList) := by
  obtain ⟨stdin, stdout, stderr, label⟩ := r
  cases stdin <;> cases stdout <;> cases stderr <;> rfl

section Node

variable {node g : Graph} {n n' : Nat} {stdin stdout : Option (Labelled Target)} {s : Stream} {t : Labelled Target}
variable (redirected : node.Redirected n n' stdin stdout g)
variable (added : ∀ u, Redirects.get { stdin, stdout } u = if u = s then some t else none)
include redirected added

private theorem get_of_added (u : Stream) : g.redirects.get u = if u = s then some t else node.redirects.get u := by
  rw [redirected.get, added]
  split <;> rfl

/-- The new redirect is asked first. -/
private theorem nearest_of_added (u : Stream) : g.nearest [] u = (node.nearest [] u).or (Claim.only [] s u) := by
  have own (g : Graph) : g.nearest [] u = (g.redirects.get u).map fun _ => .near [] u := Option.or_none
  rw [own, own, get_of_added redirected added, Claim.only]
  by_cases same : u = s
  · subst same
    rw [if_pos rfl, if_pos rfl, redirected.free (s := u) (by rw [added, if_pos rfl]; exact Option.some_ne_none t)]
    rfl
  · rw [if_neg same, if_neg same, Option.or_none]

variable (plain : t.it.graph? = none)
include plain

private theorem attached_of_added (u : Stream) : g.redirects.attached? u = node.redirects.attached? u := by
  refine redirected.attached? (fun v => ?_) u
  rw [Redirects.attached?, added]
  split
  · exact plain
  · rfl

variable (passed : ∀ u h, node.redirects.attached? u = some h → farStream u = s)
include passed

/-- The graphs that the node leads to do not get what the new redirect leads to. -/
private theorem fed_attached : List.Forall₂ (Chore.Fed (Claim.only [] s)) (choresOfRedirects node [] node.redirects)
    (choresOfRedirects g [] g.redirects) := by
  have one (u : Stream) : List.Forall₂ (Chore.Fed (Claim.only [] s))
      (choresOfTarget? [(.attached u, node)] (node.redirects.get u))
      (choresOfTarget? [(.attached u, g)] (g.redirects.get u)) := by
    have same := attached_of_added redirected added plain u
    cases found : node.redirects.attached? u with
    | none =>
      rw [Chore.choresOfTarget?_of_none _ found, Chore.choresOfTarget?_of_none _ (same.trans found)]
      exact .nil
    | some h =>
      rw [Chore.choresOfTarget?_of_attached _ found, Chore.choresOfTarget?_of_attached _ (same.trans found)]
      refine fed_part (.refl h) rfl fun v => ?_
      have far := passed u h found
      rw [Lineage.claim_attached, Lineage.claim_attached, Claim.only, far]
      split <;> rfl
  rw [Chore.choresOfRedirects_eq, Chore.choresOfRedirects_eq]
  exact List.rel_append (one .stdin) (List.rel_append (one .stdout) (one .stderr))

/-- The parts and the command of the node get what the new redirect leads to. -/
private theorem fed_inside : ∃ inside inside', node.chores [] = Chore.ofRedirects [] node.redirects ++ inside ∧
    g.chores [] = Chore.ofRedirects [] g.redirects ++ inside' ∧
    List.Forall₂ (Chore.Fed (Claim.only [] s)) inside inside' := by
  have attached := fed_attached redirected added plain passed
  have nearest := nearest_of_added redirected added
  obtain ⟨k, r, -, -, made, -⟩ := redirected.made
  cases node with
  | leaf number command r₀ =>
    cases made
    obtain ⟨label, value⟩ := command
    exact ⟨_, _, rfl, rfl, .cons (.start (by cases value <;> rfl) nearest) attached⟩
  | pipe number left right r₀ =>
    cases made
    refine ⟨_, _, rfl, rfl, .cons (.edge []) (List.rel_append ?_ (List.rel_append ?_ attached))⟩
    · refine fed_part (.refl left) rfl fun u => ?_
      rw [Lineage.claim_left, Lineage.claim_left]
      split
      · rfl
      · exact nearest u
    · refine fed_part (.refl right) rfl fun u => ?_
      rw [Lineage.claim_right, Lineage.claim_right]
      split
      · rfl
      · exact nearest u
  | group number label members r₀ =>
    cases made
    refine ⟨_, _, rfl, rfl, List.rel_append ?_ attached⟩
    exact fed_members nearest members 0
  | unknown number name => cases made
  | stray held => cases made

omit plain passed in
/-- The new redirect is served first, as nothing before it is redirected. -/
private theorem ofRedirects_of_added (first : s = .stdin ∨ node.redirects.stdin = none) :
    Chore.ofRedirects [] g.redirects = .redirect [] s t.it :: Chore.ofRedirects [] node.redirects := by
  have free := redirected.free (s := s) (by rw [added, if_pos rfl]; exact Option.some_ne_none t)
  have get := get_of_added redirected added
  rw [Chore.ofRedirects, Chore.ofRedirects, items_eq, items_eq, get, get, get]
  cases s with
  | stdin => rw [free]; rfl
  | stdout => rw [show node.redirects.get .stdin = none from first.resolve_left (by decide), free]; rfl
  | stderr => cases added .stderr

/-- **A node that gets a redirect more gains it**, where the graphs that its own redirects lead to are not concerned. -/
theorem Redirected.gains (first : s = .stdin ∨ node.redirects.stdin = none) : Gains [] s t.it node g := by
  obtain ⟨inside, inside', here, there, fed⟩ := fed_inside redirected added plain passed
  rw [ofRedirects_of_added redirected added first] at there
  refine ⟨[], _, _, here, there, List.rel_append ?_ fed⟩
  rw [Chore.ofRedirects, List.forall₂_map_left_iff, List.forall₂_map_right_iff]
  exact List.forall₂_same.mpr fun item _ => .redirect [] item.1 item.2.it

omit redirected added plain passed

/-- A redirect of stdin is gained in any case: where it is free, no redirect leads to a graph that reads from it. -/
theorem Redirected.gains_stdin (redirected : node.Redirected n n' (some t) none g) (plain : t.it.graph? = none) :
    Gains [] .stdin t.it node g := by
  refine redirected.gains (fun u => by cases u <;> rfl) plain (fun u h attached => ?_) (.inl rfl)
  cases u with
  | stdin =>
    rw [Redirects.attached?, redirected.free (s := .stdin) (Option.some_ne_none t)] at attached
    cases attached
  | stdout | stderr => rfl

/-- One of stdout is gained where errors are not passed on to a graph, which would write to it too. -/
theorem Redirected.gains_stdout (redirected : node.Redirected n n' none (some t) g) (plain : t.it.graph? = none)
    (noErrors : node.redirects.attached? .stderr = none) (noInput : node.boundary .stdin = none) :
    Gains [] .stdout t.it node g := by
  rw [boundary_eq, Option.or_eq_none_iff] at noInput
  refine redirected.gains (fun u => by cases u <;> rfl) plain (fun u h attached => ?_) (.inr noInput.1)
  cases u with
  | stdin => rfl
  | stdout =>
    rw [Redirects.attached?, redirected.free (s := .stdout) (Option.some_ne_none t)] at attached
    cases attached
  | stderr => cases noErrors.symm.trans attached

end Node

/-! ## What is made -/

/-- What is made for a graph depends on where it stands, and not on the nodes above it. -/
private theorem makings_chores (g : Graph) {above above' : Lineage} (place : above'.place = above.place) :
    Chore.makings (g.chores above') = Chore.makings (g.chores above) := by
  have here := g.chores_below [] above
  have there := g.chores_below [] above'
  rw [List.nil_append] at here there
  rw [here, there, Chore.makings, Chore.makings, List.filterMap_map, List.filterMap_map]
  refine List.filterMap_congr fun c _ => ?_
  cases c with
  | redirect q s target | edge q => simp only [Function.comp_apply, Chore.below, place]
  | start | refuse => rfl

private theorem makings_members {g g' : Graph} (members : List Graph) (index : Nat) :
    Chore.makings (choresOfMembers g' [] index members) = Chore.makings (choresOfMembers g [] index members) := by
  induction members generalizing index with
  | nil => rfl
  | cons h rest ih =>
    rw [choresOfMembers, choresOfMembers, Chore.makings_append, Chore.makings_append, ih]
    congr 1
    exact makings_chores h rfl

private theorem makings_attached {g g' : Graph} {r r' : Redirects} (same : ∀ s, r'.attached? s = r.attached? s) :
    Chore.makings (choresOfRedirects g' [] r') = Chore.makings (choresOfRedirects g [] r) := by
  have one (s : Stream) : Chore.makings (choresOfTarget? [(.attached s, g')] (r'.get s)) =
      Chore.makings (choresOfTarget? [(.attached s, g)] (r.get s)) := by
    cases found : r.attached? s with
    | none => rw [Chore.choresOfTarget?_of_none _ found, Chore.choresOfTarget?_of_none _ ((same s).trans found)]
    | some h =>
      rw [Chore.choresOfTarget?_of_attached _ found, Chore.choresOfTarget?_of_attached _ ((same s).trans found)]
      exact makings_chores h rfl
  simp only [Chore.choresOfRedirects_eq, Chore.makings_append, one]

/-- Behind the redirects of a node the same is made, whatever redirects it gets that lead to no graphs. -/
private theorem makings_inside {node g : Graph} {n n' : Nat} {stdin stdout : Option (Labelled Target)}
    (redirected : node.Redirected n n' stdin stdout g)
    (attached : ∀ s, g.redirects.attached? s = node.redirects.attached? s) :
    ∃ inside inside', node.chores [] = Chore.ofRedirects [] node.redirects ++ inside ∧
      g.chores [] = Chore.ofRedirects [] g.redirects ++ inside' ∧ Chore.makings inside' = Chore.makings inside := by
  obtain ⟨k, r, -, -, made, -⟩ := redirected.made
  cases node with
  | leaf number command r₀ =>
    cases made
    exact ⟨_, _, rfl, rfl, makings_attached attached⟩
  | pipe number left right r₀ =>
    cases made
    refine ⟨_, _, rfl, rfl, congrArg (Making.pipe _ _ :: ·) ?_⟩
    change Chore.makings (_ ++ (_ ++ _)) = Chore.makings (_ ++ (_ ++ _))
    rw [Chore.makings_append, Chore.makings_append, Chore.makings_append, Chore.makings_append]
    congr 1
    · exact makings_chores left rfl
    · congr 1
      · exact makings_chores right rfl
      · exact makings_attached attached
  | group number label members r₀ =>
    cases made
    refine ⟨_, _, rfl, rfl, ?_⟩
    rw [Chore.makings_append, Chore.makings_append, makings_members]
    congr 1
    exact makings_attached attached
  | unknown number name => cases made
  | stray held => cases made

private theorem makings_redirect (s : Stream) (t : Target) (rest : List Chore) :
    Chore.makings (.redirect [] s t :: rest) = (t.making? [] s).toList ++ Chore.makings rest := by
  rw [Chore.makings, List.filterMap_cons, Chore.making?]
  cases t.making? [] s <;> rfl

/-- **What redirects of both ends make is made once, before all that is made for the node without them.** -/
theorem Redirected.makings {node g : Graph} {n n' : Nat} {x y : Labelled Target}
    (redirected : node.Redirected n n' (some x) (some y) g) (plain : x.it.graph? = none ∧ y.it.graph? = none) :
    Chore.makings (g.chores []) = (x.it.making? [] .stdin).toList ++
      ((y.it.making? [] .stdout).toList ++ Chore.makings (node.chores [])) := by
  have freeInput := redirected.free (s := .stdin) (Option.some_ne_none x)
  have freeOutput := redirected.free (s := .stdout) (Option.some_ne_none y)
  have own : Chore.ofRedirects [] g.redirects =
      .redirect [] .stdin x.it :: .redirect [] .stdout y.it :: Chore.ofRedirects [] node.redirects := by
    have input : g.redirects.get .stdin = some x := redirected.get .stdin
    have output : g.redirects.get .stdout = some y := redirected.get .stdout
    have errors : g.redirects.get .stderr = node.redirects.get .stderr := redirected.get .stderr
    rw [Chore.ofRedirects, Chore.ofRedirects, items_eq, items_eq, input, output, errors, freeInput, freeOutput]
    rfl
  obtain ⟨inside, inside', here, there, same⟩ :=
    makings_inside redirected (redirected.attached? (attached?_eq_none plain.1 plain.2))
  rw [there, here, own, List.cons_append, List.cons_append, makings_redirect, makings_redirect, Chore.makings_append,
    Chore.makings_append, same]

/-- Whether a leaf that gains a redirect was made for its command twice does not matter. -/
theorem Gains.of_alike {g g' h : Graph} {place : Place} {s : Stream} {target : Target} (alike : h.Alike g)
    (gains : Gains place s target g g') : Gains place s target h g' := by
  cases alike with
  | refl => exact gains
  | leaf n n' command =>
    obtain ⟨edges, rest, rest', here, there, fed⟩ := gains
    cases edges with
    | cons q edges => cases here
    | nil =>
      obtain rfl : [Chore.start (.leaf n' command {}) []] = rest := here
      cases fed with
      | cons first later =>
        cases first with
        | start same nearest =>
          have commands : (leaf n' command {}).commandOf = (leaf n command {}).commandOf := by
            obtain ⟨label, value⟩ := command
            cases value <;> rfl
          exact ⟨[], _, _, rfl, there, .cons (.start (same.trans commands) nearest) later⟩

/-- **What a graph gains, a pipe gains of which it is the left part**, at the input. -/
theorem Gains.pipe {g g' h h' : Graph} {place : Place} {target : Target} (gains : Gains place .stdin target g g')
    (alike : h.Alike h') (k k' : Nat) :
    Gains (place ++ [.left]) .stdin target (.pipe k g h {}) (.pipe k' g' h' {}) := by
  obtain ⟨edges, rest, rest', here, there, fed⟩ := gains
  have atLeft (above : Lineage) (place : above.place = [.left]) :
      (edges.map Chore.edge).map (Chore.below above) = (edges.map (· ++ [.left])).map Chore.edge := by
    rw [List.map_map, List.map_map]
    exact List.map_congr_left fun q _ => by rw [Function.comp_apply, Chore.below, place]; rfl
  refine ⟨[] :: edges.map (· ++ [.left]),
    rest.map (Chore.below [(.left, .pipe k g h {})]) ++ (h.chores []).map (Chore.below [(.right, .pipe k g h {})]),
    rest'.map (Chore.below [(.left, .pipe k' g' h' {})]) ++
      (h'.chores []).map (Chore.below [(.right, .pipe k' g' h' {})]), ?_, ?_, List.rel_append ?_ ?_⟩
  · rw [chores_bare_pipe, here, List.map_append, atLeft _ rfl, List.append_assoc]
    rfl
  · rw [chores_bare_pipe, there, List.map_append, atLeft _ rfl, List.append_assoc]
    rfl
  · exact Chore.Fed.all_below fed rfl fun t => by cases t <;> rfl
  · exact Chore.Fed.all_below alike.fed rfl fun t => by cases t <;> rfl

end Graph

end Pipework
