import Pipework.Proofs.Graph.Bracketing

/-!
# Redirects that lead to no graph

What is given as a redirect, and is neither a graph nor a command, becomes a target by itself: whether it is
refused, and what it is taken for, depends on the stream and on nothing that was built before, the labels of new
objects apart (`Target.ofItem?_of_plain`). So redirecting a graph with plain values only asks whether they are
accepted and whether the streams are free (`Graph.settles_redirect`), and it changes the redirects of the node and
nothing else (`Graph.Redirected`).
-/

namespace Pipework

/-- Something is given as a redirect, and it leads to no graph. -/
def Item.IsPlain (i : Item) : Prop :=
  match i.it with
  | .none | .graph _ | .command .. | .target (.graph _) => False
  | _ => True

theorem Item.IsPlain.ne_none {i : Item} (plain : i.IsPlain) : i.it ≠ .none := by
  intro absent
  rw [Item.IsPlain, absent] at plain
  exact plain

/-! ## Targets but for labels -/

namespace Target

/-- A target without the label of what it holds. -/
def bare : Target → Target
  | .file path append => .file ⟨.constant "", path.it⟩ append
  | .buffer held => .buffer ⟨.constant "", held.it⟩
  | t => t

theorem graph?_bare (t : Target) : t.bare.graph? = t.graph? := by cases t <;> rfl

variable {i : Item} {s : Stream} {append : Bool} {n : Nat}

/-- Plain items are refused whatever was built before, or they are taken for the same target but for labels. -/
theorem ofItem?_of_plain (plain : i.IsPlain) (s : Stream) (append : Bool) :
    (∃ e : BuildError, e.IsRefusal ∧ ∀ n, (ofItem? i s append).run n = .error e) ∨
    ∃ t : Target, t.graph? = none ∧ ∀ n, ∃ (made : Labelled Target) (n' : Nat), n ≤ n' ∧
      (ofItem? i s append).run n = .ok (some made, n') ∧ made.it.bare = t := by
  obtain ⟨label, value⟩ := i
  have made {x : Building (Option (Labelled Target))} (t : Target) (noGraph : t.graph? = none)
      (same : x = fresh t) : ∃ t : Target, t.graph? = none ∧ ∀ n, ∃ (made : Labelled Target) (n' : Nat), n ≤ n' ∧
        x.run n = .ok (some made, n') ∧ made.it.bare = t := by
    refine ⟨t.bare, (graph?_bare t).trans noGraph, fun n => ⟨⟨.own n, t⟩, n + 1, Nat.le_succ n, ?_, rfl⟩⟩
    rw [same]
    rfl
  cases value with
  | none | graph g | command c words => cases plain
  | target t =>
    cases t with
    | graph g => cases plain
    | file path append' =>
      cases s <;> cases append' <;> first
        | exact .inl ⟨.appendToInput, fun m => ⟨_, rfl⟩, fun n => rfl⟩
        | exact .inr ⟨_, rfl, fun n => ⟨_, n, Nat.le_refl n, rfl, rfl⟩⟩
    | _ => exact .inr ⟨_, rfl, fun n => ⟨_, n, Nat.le_refl n, rfl, rfl⟩⟩
  | bool b => exact .inl ⟨_, fun m => ⟨_, rfl⟩, fun n => rfl⟩
  | int z | file descriptor => exact .inr (made _ rfl rfl)
  | bytes b =>
    cases s with
    | stdin => exact .inr (made _ rfl rfl)
    | stdout | stderr => exact .inl ⟨_, fun m => ⟨_, rfl⟩, fun n => rfl⟩
  | view b =>
    cases s with
    | stdin =>
      exact .inr ⟨.buffer ⟨.constant "", .bytes b⟩, rfl, fun n => ⟨_, n + 2, Nat.le_add_right n 2, rfl, rfl⟩⟩
    | stdout | stderr => exact .inl ⟨_, fun m => ⟨_, rfl⟩, fun n => rfl⟩
  | _ =>
    unfold ofItem?
    dsimp only
    split
    · exact .inr ⟨.file ⟨.constant "", .str _⟩ (append && s != .stdin), rfl,
        fun n => ⟨_, n + 2, Nat.le_add_right n 2, rfl, rfl⟩⟩
    · split
      · exact .inr (made _ rfl rfl)
      · exact .inl ⟨_, fun m => ⟨_, rfl⟩, fun n => rfl⟩

end Target

/-! ## What plain items mean -/

/-- What an item is taken for as a redirect of a stream, whatever was built before. -/
def Item.Means (i : Item) (s : Stream) (append : Bool) (t : Target) : Prop :=
  ∀ n, ∃ (made : Labelled Target) (n' : Nat), n ≤ n' ∧ (Target.ofItem? i s append).run n = .ok (some made, n') ∧
    made.it.bare = t

/-- What comes of an item that is given as a redirect: nothing if it is absent, and else what it means. -/
def Item.Gives (i : Item) (s : Stream) (append : Bool) : Option (Labelled Target) → Prop
  | none => i.it = .none
  | some t => t.it.graph? = none ∧ i.Means s append t.it.bare

section Items

variable {i : Item} {s : Stream} {append : Bool} {n : Nat}

theorem Item.Means.unique {t t' : Target} (means : i.Means s append t) (means' : i.Means s append t') : t = t' := by
  obtain ⟨made, _, -, ran, rfl⟩ := means 0
  obtain ⟨made', _, -, ran', rfl⟩ := means' 0
  cases ran.symm.trans ran'
  rfl

/-- Of nothing comes nothing. -/
theorem Item.Gives.absent {t? : Option (Labelled Target)} (gives : i.Gives s append t?) (absent : i.it = .none) :
    t? = none := by
  cases t? with
  | none => rfl
  | some t =>
    obtain ⟨made, _, -, ran, -⟩ := gives.2 0
    rw [Target.ofItem?, absent] at ran
    cases ran

/-- Of something comes something. -/
theorem Item.Gives.given {t? : Option (Labelled Target)} (gives : i.Gives s append t?) (plain : i.IsPlain) :
    ∃ t, t? = some t := by
  cases t? with
  | some t => exact ⟨t, rfl⟩
  | none => exact absurd gives plain.ne_none

/-- What comes of an item leads to no graph. -/
theorem Item.Gives.graph? {t? : Option (Labelled Target)} (gives : i.Gives s append t?) :
    t?.bind (·.it.graph?) = none := by
  cases t? with
  | none => rfl
  | some t => exact gives.1

theorem Target.settles_ofItem? (plain : i.IsPlain) (s : Stream) (append : Bool) (n : Nat) :
    (ofItem? i s append).Settles n (∃ t, i.Means s append t) fun t? _ =>
      ∃ t, t? = some t ∧ t.it.graph? = none ∧ i.Means s append t.it.bare := by
  rcases ofItem?_of_plain plain s append with ⟨e, refusal, refused⟩ | ⟨t, noGraph, means⟩
  · rw [Building.Settles, refused]
    refine ⟨?_, refusal⟩
    rintro ⟨t, means⟩
    obtain ⟨made, n', -, ran, -⟩ := means n
    cases (refused n).symm.trans ran
  · obtain ⟨made, n', later, ran, rfl⟩ := means n
    rw [Building.Settles, ran]
    exact ⟨later, ⟨_, means⟩, made, rfl, (graph?_bare _).symm.trans noGraph, means⟩

end Items

namespace Graph

/-- A node can be given a redirect: nothing is given, or something that is accepted, for a stream that is free. -/
def Accepts (node : Graph) (i : Item) (s : Stream) (append : Bool) : Prop :=
  i.it = .none ∨ (∃ t, i.Means s append t) ∧ node.boundary s = none

theorem Accepts.congr {g h : Graph} {i : Item} {s : Stream} {append : Bool} (same : g.boundary s = h.boundary s) :
    g.Accepts i s append ↔ h.Accepts i s append := by rw [Accepts, Accepts, same]

/-- A node with a redirect more of stdin and of stdout, where there is one to be added. -/
structure Redirected (node : Graph) (n n' : Nat) (stdin stdout : Option (Labelled Target)) (g : Graph) : Prop where
  input : stdin = none ∨ node.boundary .stdin = none
  output : stdout = none ∨ node.boundary .stdout = none
  made : ∃ k r, n ≤ k ∧ k < n' ∧ node.withRedirects? k r = some g ∧ r.stdin = stdin.or node.redirects.stdin ∧
    r.stdout = stdout.or node.redirects.stdout ∧ r.stderr = node.redirects.stderr

variable {node : Graph} {values : RedirectValues} {append : Bool} {s : Stream} {n m : Nat}

theorem settles_claim (whole : node.Whole) (plain : (values.get s).it = .none ∨ (values.get s).IsPlain) :
    (claim node values append s).Settles n (node.Accepts (values.get s) s append) fun t? _ =>
      (values.get s).Gives s append t? := by
  rcases plain with absent | plain
  · have nothing : (claim node values append s).run n = .ok (none, n) := by
      rw [claim, Target.ofItem?, absent]
      rfl
    rw [Building.Settles, nothing]
    exact ⟨Nat.le_refl n, .inl absent, absent⟩
  · refine (Target.settles_ofItem? plain s append n).bind_iff
      ⟨.inr, fun accepts => accepts.resolve_left plain.ne_none⟩ ?_
    rintro _ m - - ⟨t, rfl, noGraph, means⟩
    refine Building.Settles.mono (settles_free whole fun _ => ?_) (.of_eq (and_true _)) fun _ _ _ _ gives => gives
    rw [noGraph]
    exact .pure ⟨noGraph, means⟩

/-- Redirects of stdin and stdout lead to no graph if neither of the two does. -/
theorem attached?_eq_none {stdin stdout : Option (Labelled Target)} (input : stdin.bind (·.it.graph?) = none)
    (output : stdout.bind (·.it.graph?) = none) (s : Stream) : Redirects.attached? { stdin, stdout } s = none := by
  cases s
  exacts [input, output, rfl]

/-- Nothing that leads to a graph is added. -/
private theorem graphs_of_gives {input output : Item} {stdin stdout : Option (Labelled Target)}
    (fromInput : input.Gives .stdin append stdin) (fromOutput : output.Gives .stdout append stdout) :
    Redirects.graphs { stdin, stdout } = [] := by
  refine List.eq_nil_iff_forall_not_mem.mpr fun g member => ?_
  obtain ⟨s, attached⟩ := mem_graphs.mp member
  cases (attached?_eq_none fromInput.graph? fromOutput.graph? s).symm.trans attached

/-- Redirecting stdin and stdout with plain values is accepted exactly if both are, for a node below which no node
stands twice, and changes the redirects of the node. -/
theorem settles_redirect {i : Item} (becomes : Becomes i n node m) (whole : node.Whole) (known : node.IsKnown)
    (input : values.stdin.it = .none ∨ values.stdin.IsPlain)
    (output : values.stdout.it = .none ∨ values.stdout.IsPlain) (errors : values.stderr.it = .none)
    (given : values.stdin.it ≠ .none ∨ values.stdout.it ≠ .none) :
    (redirect i values append).Settles n
      (node.Accepts values.stdin .stdin append ∧ node.Accepts values.stdout .stdout append ∧ node.IsTree) fun g n' =>
      ∃ stdin stdout, values.stdin.Gives .stdin append stdin ∧ values.stdout.Gives .stdout append stdout ∧
        node.Redirected m n' stdin stdout g := by
  have start : (ofItem i).Settles n True fun g n' => g = node ∧ n' = m := by
    rw [Building.Settles, becomes.ran]
    exact ⟨becomes.later, trivial, rfl, rfl⟩
  refine start.bind_of_true ?_
  rintro node m - ⟨rfl, rfl⟩
  refine (settles_claim (s := .stdin) whole input).bind fun stdin m₁ le₁ freeInput fromInput => ?_
  refine (settles_claim (s := .stdout) whole output).bind fun stdout m₂ le₂ freeOutput fromOutput => ?_
  refine (settles_claim (s := .stderr) whole (.inl errors)).bind_iff
    ⟨And.right, fun isTree => ⟨.inl errors, isTree⟩⟩ fun stderr m₃ le₃ _ noErrors => ?_
  obtain rfl := noErrors.absent errors
  dsimp only
  have noGraphs := graphs_of_gives fromInput fromOutput
  have some : Redirects.isEmpty { stdin, stdout } = false := by
    cases stdin with
    | some t => rfl
    | none =>
      cases stdout with
      | some t => rfl
      | none => exact absurd fromOutput (given.resolve_left (not_not.mpr fromInput))
  rw [if_neg (by rw [some]; exact Bool.false_ne_true), noGraphs]
  have nodes : ∀ g ∈ [node], g.Whole := by simpa using whole
  refine (settles_checkDistinct nodes m₃).bind_iff
    ⟨fun both => distinct_singleton.mp both.1, fun isTree => ⟨distinct_singleton.mpr isTree, trivial⟩⟩ ?_
  rintro _ m₃ - - rfl
  have drawn : (Redirects.ofItems (node.redirects.items ++ Redirects.items { stdin, stdout })).Settles m₃ True
      fun r n' => n' = m₃ + 1 ∧ ∀ s, r.get s = (Redirects.get { stdin, stdout } s).or (node.redirects.get s) :=
    ⟨Nat.le_succ m₃, trivial, rfl, ((yields_ofItems_append node.redirects { stdin, stdout } m₃).ok rfl).2⟩
  refine drawn.bind_of_true ?_
  rintro r _ - ⟨rfl, merged⟩
  obtain ⟨g, inside, redirected, -⟩ := known.withRedirects (m₃ + 1) r
  have numbered : Building.freshNumber.Settles (m₃ + 1) True fun k n' => k = m₃ + 1 ∧ n' = m₃ + 2 :=
    ⟨Nat.le_succ _, trivial, rfl, rfl⟩
  refine numbered.bind_of_true ?_
  rintro _ _ - ⟨rfl, rfl⟩
  rw [redirected]
  exact .pure ⟨stdin, stdout, fromInput, fromOutput, freeInput.imp fromInput.absent And.right,
    freeOutput.imp fromOutput.absent And.right, m₃ + 1, r, by omega, by omega, redirected, merged .stdin,
    merged .stdout, merged .stderr⟩

/-! ## A redirect more -/

/-- The graphs right below a node: its parts, and the graphs that its redirects lead to. -/
def branches : Graph → List Graph
  | .leaf _ _ r => r.graphs
  | .pipe _ left right r => left :: right :: r.graphs
  | .group _ _ members r => members ++ r.graphs
  | .unknown .. | .stray _ => []

theorem nodes_eq (g : Graph) : g.nodes = g :: nodesOfAll g.branches := by
  cases g with
  | leaf number command r => rw [nodes, branches, nodesOfRedirects_eq]
  | pipe number left right r => rw [nodes, branches, nodesOfRedirects_eq, nodesOfAll, nodesOfAll, List.append_assoc]
  | group number label members r => rw [nodes, branches, nodesOfRedirects_eq, nodesOfAll_append]
  | unknown number name => rfl
  | stray held => rfl

/-- The redirects of the same streams lead to the same graphs. -/
theorem graphs_congr {r r' : Redirects} (same : ∀ s, r.attached? s = r'.attached? s) : r.graphs = r'.graphs := by
  have listed (r : Redirects) : r.graphs = Stream.all.filterMap r.attached? := by
    rw [Redirects.graphs, Redirects.items, List.filterMap_filterMap]
    congr 1
    funext s
    rw [Redirects.attached?]
    cases r.get s <;> rfl
  rw [listed, listed, funext same]

namespace Redirected

variable {n' : Nat} {g : Graph} {stdin stdout : Option (Labelled Target)}
variable (redirected : node.Redirected n n' stdin stdout g)
include redirected

theorem known : g.IsKnown := by
  obtain ⟨k, r, -, -, made, -⟩ := redirected.made
  cases node <;> cases made <;> trivial

theorem later : n < n' := by
  obtain ⟨k, r, first, last, -⟩ := redirected.made
  omega

theorem number : n ≤ g.number ∧ g.number < n' := by
  obtain ⟨k, r, first, last, made, -⟩ := redirected.made
  cases node <;> cases made <;> exact ⟨first, last⟩

theorem within (s : Stream) : g.within s = node.within s := by
  obtain ⟨k, r, -, -, made, -⟩ := redirected.made
  cases node <;> cases made <;> cases s <;> rfl

theorem get (s : Stream) :
    g.redirects.get s = (Redirects.get { stdin, stdout } s).or (node.redirects.get s) := by
  obtain ⟨k, r, -, -, made, input, output, errors⟩ := redirected.made
  have own : g.redirects = r := by cases node <;> cases made <;> rfl
  rw [own]
  cases s with
  | stdin => exact input
  | stdout => exact output
  | stderr => exact errors

theorem boundary (s : Stream) : g.boundary s = (Redirects.get { stdin, stdout } s).or (node.boundary s) := by
  rw [boundary_eq, boundary_eq, redirected.get, redirected.within, Option.or_assoc]

/-- Where a redirect is added, there was none. -/
theorem free {s : Stream} (added : Redirects.get { stdin, stdout } s ≠ none) : node.redirects.get s = none := by
  have isFree : node.boundary s = none := by
    cases s with
    | stdin => exact redirected.input.resolve_left added
    | stdout => exact redirected.output.resolve_left added
    | stderr => exact absurd rfl added
  rw [boundary_eq, Option.or_eq_none_iff] at isFree
  exact isFree.1

variable (noGraphs : ∀ s, (Redirects.attached? { stdin, stdout } s) = none)
include noGraphs

/-- The redirects that are added lead to no graphs. -/
theorem attached? (s : Stream) : g.redirects.attached? s = node.redirects.attached? s := by
  have plain := noGraphs s
  rw [Redirects.attached?] at plain ⊢
  rw [redirected.get]
  cases added : Redirects.get { stdin, stdout } s with
  | none => rfl
  | some t =>
    rw [added] at plain
    rw [Redirects.attached?, redirected.free (by rw [added]; exact Option.some_ne_none t)]
    exact plain

theorem branches : g.branches = node.branches := by
  have same := graphs_congr (redirected.attached? noGraphs)
  obtain ⟨k, r, -, -, made, -⟩ := redirected.made
  cases node <;> cases made <;> rw [Graph.branches, Graph.branches] <;> rw [show r.graphs = _ from same] <;> rfl

theorem draws : Draws n n' node.branches [g] := by
  refine ⟨Nat.le_of_lt redirected.later, [g.number], List.nodup_cons.mpr ⟨List.not_mem_nil, .nil⟩,
    fun k member => ?_, ?_⟩
  · cases List.mem_singleton.mp member
    exact redirected.number
  · rw [numbersOf, nodesOfAll_singleton, nodes_eq, redirected.branches noGraphs]
    exact .refl _

/-- What is redirected is as old as what is made of it. -/
theorem isOlder (whole : node.Whole) (older : ∀ a ∈ node.nodes, a.number < n) : g.toItem.IsOlder n' := by
  have known := redirected.known
  have isItem : g.toItem.part? = some g := by cases g <;> first | rfl | cases known
  intro h isPart
  cases isItem.symm.trans isPart
  have below (a : Graph) (member : a ∈ g.nodes) : a = g ∨ a ∈ node.nodes := by
    rw [nodes_eq, redirected.branches noGraphs] at member
    refine (List.mem_cons.mp member).imp_right fun inside => ?_
    rw [nodes_eq]
    exact List.mem_cons_of_mem _ inside
  refine ⟨fun a member => ?_, fun a member => ?_⟩ <;> rcases below a member with rfl | old
  · exact known.isNode
  · exact whole a old
  · exact redirected.number.2
  · exact Nat.lt_trans (older a old) redirected.later

end Redirected

end Graph

end Pipework
