import Pipework.Graph.Inspect

/-!
# The nodes of a graph

A graph is made of the parts of its nodes and of the graphs that redirects lead to, through lists
and optional targets. The induction principle of this module hides that: to prove something of all
graphs, one proves it of a node whose members and whose attached graphs have it.

The nodes of a graph contain, for each of them, the nodes below it. So what holds of every node of a
graph holds of every part of it, and no node stands twice in a part if none does in the whole.
-/

namespace Pipework

/-! ## Induction over graphs -/

/-- The graph that the redirect of a stream leads to, if there is one. -/
def Redirects.attached? (r : Redirects) (s : Stream) : Option Graph := (r.get s).bind (·.it.graph?)

/-- Induction over the nodes of a graph and of all graphs that redirects in it lead to. -/
theorem Graph.induction {P : Graph → Prop}
    (leaf : ∀ number command r, (∀ s g, r.attached? s = some g → P g) → P (.leaf number command r))
    (pipe : ∀ number left right r, P left → P right → (∀ s g, r.attached? s = some g → P g) →
      P (.pipe number left right r))
    (group : ∀ number label members r, (∀ g ∈ members, P g) →
      (∀ s g, r.attached? s = some g → P g) → P (.group number label members r))
    (unknown : ∀ number name, P (.unknown number name))
    (stray : ∀ held, P (.stray held)) (g : Graph) : P g := by
  refine Graph.nodes.induct P (fun members => ∀ g ∈ members, P g)
    (fun r => ∀ s g, r.attached? s = some g → P g)
    (fun t => ∀ g, t.bind (·.it.graph?) = some g → P g)
    ?redirects leaf pipe group unknown stray ?leading ?other ?none
    ?more g
  case redirects =>
    intro stdin stdout stderr label inStdin inStdout inStderr s g attached
    cases s with
    | stdin => exact inStdin g attached
    | stdout => exact inStdout g attached
    | stderr => exact inStderr g attached
  case leading =>
    intro label g inGraph found same
    cases same
    exact inGraph
  case other =>
    intro t other g same
    obtain ⟨⟨label, target⟩, rfl, leads⟩ := Option.bind_eq_some_iff.mp same
    cases target with
    | graph found => exact absurd rfl (other label found)
    | _ => cases leads
  case none =>
    intro g member
    cases member
  case more =>
    intro first rest inFirst inRest g member
    rcases List.mem_cons.mp member with rfl | later
    · exact inFirst
    · exact inRest g later

/-! ## Nodes -/

namespace Graph

theorem nodesOfAll_eq (graphs : List Graph) : nodesOfAll graphs = graphs.flatMap nodes := by
  induction graphs with
  | nil => rfl
  | cons g rest ih => rw [nodesOfAll, ih, List.flatMap_cons]

@[simp] theorem nodesOfAll_append (a b : List Graph) :
    nodesOfAll (a ++ b) = nodesOfAll a ++ nodesOfAll b := by
  simp [nodesOfAll_eq]

theorem nodesOfAll_singleton (g : Graph) : nodesOfAll [g] = g.nodes := by
  simp [nodesOfAll_eq]

/-- What a redirect of a stream contributes to the nodes. -/
theorem nodesOfTarget?_eq (t : Option (Labelled Target)) :
    nodesOfTarget? t = nodesOfAll (t.bind (·.it.graph?)).toList := by
  cases t with
  | none => rfl
  | some t =>
    obtain ⟨label, target⟩ := t
    cases target <;> first | rfl | exact (nodesOfAll_singleton _).symm

theorem nodesOfRedirects_get (r : Redirects) : nodesOfRedirects r =
    nodesOfTarget? (r.get .stdin) ++ nodesOfTarget? (r.get .stdout) ++ nodesOfTarget? (r.get .stderr) := by
  obtain ⟨stdin, stdout, stderr, label⟩ := r
  rfl

/-- The nodes that redirects lead to are those of their graphs. -/
theorem nodesOfRedirects_eq (r : Redirects) : nodesOfRedirects r = nodesOfAll r.graphs := by
  obtain ⟨stdin, stdout, stderr, label⟩ := r
  have one (t : Option (Labelled Target)) (s : Stream) :
      ((t.map (s, ·)).toList.filterMap fun item => item.2.it.graph?) = (t.bind (·.it.graph?)).toList := by
    cases t with
    | none => rfl
    | some t => cases leads : t.it.graph? <;> simp [leads]
  have graphs : Redirects.graphs ⟨stdin, stdout, stderr, label⟩ =
      (stdin.bind (·.it.graph?)).toList ++
        ((stdout.bind (·.it.graph?)).toList ++ (stderr.bind (·.it.graph?)).toList) := by
    rw [← one stdin .stdin, ← one stdout .stdout, ← one stderr .stderr, ← List.filterMap_append,
      ← List.filterMap_append]
    cases stdin <;> cases stdout <;> cases stderr <;> rfl
  rw [graphs, nodesOfAll_append, nodesOfAll_append, ← nodesOfTarget?_eq, ← nodesOfTarget?_eq,
    ← nodesOfTarget?_eq, ← List.append_assoc]
  rfl

theorem mem_graphs {r : Redirects} {h : Graph} :
    h ∈ r.graphs ↔ ∃ s, r.attached? s = some h := by
  constructor
  · intro member
    obtain ⟨⟨s, t⟩, isItem, leads⟩ := List.mem_filterMap.mp member
    obtain ⟨u, -, found⟩ := List.mem_filterMap.mp isItem
    obtain ⟨t', redirected, same⟩ := Option.map_eq_some_iff.mp found
    cases same
    exact ⟨s, Option.bind_eq_some_iff.mpr ⟨t, redirected, leads⟩⟩
  · rintro ⟨s, attached⟩
    obtain ⟨t, redirected, leads⟩ := Option.bind_eq_some_iff.mp attached
    refine List.mem_filterMap.mpr ⟨(s, t), List.mem_filterMap.mpr ⟨s, ?_, ?_⟩, leads⟩
    · cases s <;> decide
    · rw [redirected]
      rfl

theorem self_mem_nodes (g : Graph) : g ∈ g.nodes := by
  cases g <;> exact List.mem_cons_self

theorem sublist_nodesOfAll {g : Graph} {graphs : List Graph} (member : g ∈ graphs) :
    g.nodes.Sublist (nodesOfAll graphs) := by
  rw [nodesOfAll_eq]
  exact List.sublist_flatten_of_mem (List.mem_map_of_mem member)

theorem mem_nodesOfAll {n : Graph} {graphs : List Graph} :
    n ∈ nodesOfAll graphs ↔ ∃ g ∈ graphs, n ∈ g.nodes := by
  rw [nodesOfAll_eq, List.mem_flatMap]

private theorem sublist_of_attached {r : Redirects} {h : Graph}
    (inAttached : ∀ s g, r.attached? s = some g → h ∈ g.nodes → h.nodes.Sublist g.nodes)
    (member : h ∈ nodesOfRedirects r) : h.nodes.Sublist (nodesOfRedirects r) := by
  rw [nodesOfRedirects_eq] at member ⊢
  obtain ⟨g, isGraph, inGraph⟩ := mem_nodesOfAll.mp member
  obtain ⟨s, attached⟩ := mem_graphs.mp isGraph
  exact (inAttached s g attached inGraph).trans (sublist_nodesOfAll isGraph)

/-- The nodes below a node of a graph are nodes of the graph, in the same order. -/
theorem nodes_sublist {g h : Graph} (member : h ∈ g.nodes) : h.nodes.Sublist g.nodes := by
  induction g using Graph.induction with
  | leaf number command r attached =>
    rcases List.mem_cons.mp member with rfl | below
    · exact .refl _
    · exact (sublist_of_attached attached below).cons _
  | pipe number left right r inLeft inRight attached =>
    rcases List.mem_cons.mp member with rfl | below
    · exact .refl _
    · refine List.Sublist.cons _ ?_
      rcases List.mem_append.mp below with inside | below
      · refine List.Sublist.trans ?_ (List.sublist_append_left _ _)
        rcases List.mem_append.mp inside with inside | inside
        · exact (inLeft inside).trans (List.sublist_append_left _ _)
        · exact (inRight inside).trans (List.sublist_append_right _ _)
      · exact (sublist_of_attached attached below).trans (List.sublist_append_right _ _)
  | group number label members r inMembers attached =>
    rcases List.mem_cons.mp member with rfl | below
    · exact .refl _
    · refine List.Sublist.cons _ ?_
      rcases List.mem_append.mp below with inside | below
      · obtain ⟨g, isMember, inMember⟩ := mem_nodesOfAll.mp inside
        exact ((inMembers g isMember inMember).trans (sublist_nodesOfAll isMember)).trans
          (List.sublist_append_left _ _)
      · exact (sublist_of_attached attached below).trans (List.sublist_append_right _ _)
  | unknown number name =>
    cases List.mem_singleton.mp member
    exact .refl _
  | stray held =>
    cases List.mem_singleton.mp member
    exact .refl _

/-- No node stands twice among the nodes of some graphs. -/
def Distinct (graphs : List Graph) : Prop := ((nodesOfAll graphs).map number).Nodup

instance (graphs : List Graph) : Decidable (Distinct graphs) :=
  inferInstanceAs (Decidable ((nodesOfAll graphs).map number).Nodup)

theorem Distinct.of_sublist {a b : List Graph} (distinct : Distinct b)
    (sublist : (nodesOfAll a).Sublist (nodesOfAll b)) : Distinct a :=
  distinct.sublist (sublist.map number)

end Graph

end Pipework
