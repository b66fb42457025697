import Pipework.Proofs.Engine.Phases
import Pipework.Proofs.Graph.Redirected
import Pipework.Proofs.Wiring.Groupings

/-!
# Piping is associative

To join three graphs by pipes, it does not matter which two are joined first. The joinings are refused
together, and when the two pipes are started in one system, with the same redirects, the starts do likewise
(`Engine.Likewise`): they come to the same end, after trying the same commands in the same order, on the same
streams but for the numbers of the descriptors that the starts open themselves. That holds as long as no
redirect names a descriptor by a number that the start is yet to hand out: which command finds it open then
depends on the order in which the pipes are made.
-/

namespace Pipework

namespace Engine

/-- A start that came to its walk's end: every redirect could be resolved, and every command was tried. -/
def Completes (outcome : Except Failure Handle) : Prop :=
  (∃ h, outcome = .ok h) ∨ ∃ failures, outcome = .error (.spawn failures)

/-- The same outcome of two starts whose graphs differ in the grouping of a pipe. -/
inductive SameEnd : Except Failure Handle → Except Failure Handle → Prop
  | started {h h' : Handle} (processes : h'.processes = h.processes)
    (leaves : List.Forall₂ Graph.Alike h.graph.leaves h'.graph.leaves) : SameEnd (.ok h) (.ok h')
  | failed (e : Failure) : SameEnd (.error e) (.error e)
  /-- Build errors may tell of the graph, which is grouped otherwise. -/
  | refused (e e' : BuildError) (text text' : Text) : SameEnd (.error (.build e text)) (.error (.build e' text'))

/-- Two starts in one system that do the same, but for the numbers of the descriptors that they open. -/
structure Likewise (w : World) (x y : Except Failure Handle × Engine × World) : Prop where
  outcome : SameEnd x.1 y.1
  engine : y.2.1 = x.2.1
  /-- The same commands are tried in the same order, on the same streams under other numbers. -/
  trace : ∃ ρ events events', x.2.2.events = w.events ++ events ∧ y.2.2.events = w.events ++ events' ∧
    Function.Injective ρ ∧ (∀ k < w.nextDescriptor, ρ k = k) ∧
    events'.filter Event.isStart = (events.filter Event.isStart).map (Event.renamed ρ) ∧
    (Completes x.1 → (openedBy events').Perm ((openedBy events).map ρ))

/-- What becomes of a start after its walk. -/
inductive AfterWalk (e : Engine) (g : Graph) (σ : Wiring) :
    Except Failure Unit → Except Failure Handle → Engine → Prop
  | stopped {failure : Failure} : AfterWalk e g σ (.error failure) (.error failure) e
  | incomplete (failed : σ.failures ≠ []) : AfterWalk e g σ (.ok ()) (.error (.spawn σ.failures))
      { e with stats := { e.stats with spawnFailures := e.stats.spawnFailures + σ.failures.length } }
  | started {h : Handle} (fine : σ.failures = []) (graph : h.graph = g) (processes : h.processes = σ.processes) :
    AfterWalk e g σ (.ok ()) (.ok h) { e with stats := { e.stats with
      graphs := e.stats.graphs + 1
      processes := e.stats.processes + σ.processes.length } }

section Walked

variable {item : Item} {values : RedirectValues} {e : Engine} {w w₁ w₂ : World} {g : Graph}
variable {value : Claim → Descriptor} {outcome : Except Failure Unit} {σ : Wiring} {done : List Chore}
variable {events : List Event} {starts : List Start}

/-- After its walk a start tries no command and opens nothing. -/
theorem spawn_of_walk (sound : w.Sound) (begins : Begins item values w g w₁)
    (walked : (Wiring.walk {} g).exec { settings := e.settings } w₁ = (outcome, σ, w₂))
    (progress : Wiring.Progress value e.settings w₁ w₂ done σ events starts) :
    ∃ result e' w₃ more, (spawn item values).exec e w = (result, e', w₃) ∧ AfterWalk e g σ outcome result e' ∧
      w₃.events = w.events ++ (events ++ more) ∧ more.filter Event.isStart = [] ∧ openedBy more = [] := by
  have sound₁ := sound.passes begins.passes
  have before : w₁.events = w.events := by rw [begins.passes.trace, List.append_nil]
  cases outcome with
  | error failure =>
    obtain ⟨w₃, more, wired, nothing, quiet, opens⟩ := exec_wire_of_stopped sound₁ progress walked
    exact ⟨_, _, _, more, exec_spawn_of_error begins wired, .stopped, before ▸ nothing.trace, quiet, opens⟩
  | ok _ =>
    obtain ⟨_, _, -, wired⟩ := exec_wire_of_ok sound₁ walked
    by_cases fine : σ.failures = []
    · obtain ⟨-, kept⟩ := progress.exec_closeChildSide sound₁
      obtain ⟨pumps, w₃, launching, launched, launches, account, -, -⟩ := launch_pumps kept sound₁
      obtain ⟨line, spawned⟩ := exec_spawn_of_ok begins wired fine launched
      refine ⟨_, _, _, (σ.childDescriptors ++ σ.files).map .closed ++ launching, spawned, .started fine rfl rfl, ?_,
        ?_, ?_⟩
      · rw [← List.append_assoc events, ← before]
        exact account.trace
      · rw [List.filter_append, filter_isStart_map_closed, launches.starts]
        rfl
      · rw [openedBy_append, openedBy_map_closed, launches.opens]
        rfl
    · obtain ⟨w₃, more, aborted, nothing, quiet, opens⟩ := progress.exec_abort sound₁
      exact ⟨_, _, _, more, exec_spawn_of_failures begins wired fine aborted, .incomplete fine,
        before ▸ nothing.trace, quiet, opens⟩

end Walked

/-! ## Two groupings -/

/-- Two steps of building that run in parallel do so in a system. -/
theorem building_parallel {α β : Type} {x : Building α} {y : Building β} {R : α → β → Prop}
    (parallel : x.Parallel y R) (w : World) :
    (∃ a b w₁, (building x).exec w = (.ok a, w₁) ∧ (building y).exec w = (.ok b, w₁) ∧ R a b) ∨
    ∃ e e' : BuildError, (building x).exec w = (.error (e.failure w.memory), w) ∧
      (building y).exec w = (.error (e'.failure w.memory), w) ∧ e.Like e' := by
  have together := parallel w.nextNumber
  cases ran : x.run w.nextNumber with
  | error e =>
    cases ran' : y.run w.nextNumber with
    | error e' =>
      rw [ran, ran'] at together
      refine .inr ⟨e, e', ?_, ?_, together⟩
      · simp only [building, Sim.exec_bind, Sim.exec_world, ran, Sim.exec_throw]
      · simp only [building, Sim.exec_bind, Sim.exec_world, ran', Sim.exec_throw]
    | ok done' =>
      rw [ran, ran'] at together
      exact together.elim
  | ok done =>
    cases ran' : y.run w.nextNumber with
    | error e' =>
      rw [ran, ran'] at together
      exact together.elim
    | ok done' =>
      rw [ran, ran'] at together
      obtain ⟨a, n⟩ := done
      obtain ⟨b, n'⟩ := done'
      obtain ⟨rfl, related⟩ := together
      refine .inl ⟨a, b, { w with nextNumber := n }, ?_, ?_, related⟩
      · simp only [building, Sim.exec_bind, Sim.exec_world, ran, Sim.exec_modify, Sim.exec_pure]
      · simp only [building, Sim.exec_bind, Sim.exec_world, ran', Sim.exec_modify, Sim.exec_pure]

/-- The same end of two walks is the same end of the starts. -/
private theorem AfterWalk.sameEnd {e e₁ e₂ : Engine} {g g' : Graph} {σ σ' : Wiring} {outcome : Except Failure Unit}
    {result result' : Except Failure Handle} (after : AfterWalk e g σ outcome result e₁)
    (after' : AfterWalk e g' σ' outcome result' e₂) (regrouped : g.Regrouped g')
    (processes : σ'.processes = σ.processes) (failures : σ'.failures = σ.failures) :
    SameEnd result result' ∧ e₂ = e₁ := by
  cases after with
  | stopped =>
    cases after'
    exact ⟨.failed _, rfl⟩
  | incomplete failed =>
    cases after' with
    | incomplete failed' =>
      rw [failures]
      exact ⟨.failed _, rfl⟩
    | started fine => exact absurd (failures.symm.trans fine) failed
  | started fine graph kept =>
    cases after' with
    | incomplete failed => exact absurd (failures.trans fine) failed
    | started fine' graph' kept' =>
      refine ⟨.started (by rw [kept', kept, processes]) ?_, by rw [processes]⟩
      rw [graph, graph', ← Graph.map_fst_occurrences, ← Graph.map_fst_occurrences]
      exact List.forall₂_map_left_iff.mpr (List.forall₂_map_right_iff.mpr
        (regrouped.occurrences.imp fun o o' both => both.1))

variable {item item' : Item} {values : RedirectValues} {e : Engine} {w w₁ : World} {g g' : Graph}

section Begun

variable (sound : w.Sound) (begins : Begins item values w g w₁) (begins' : Begins item' values w g' w₁)
variable (regrouped : g.Regrouped g')
include sound begins begins' regrouped

/-- Two walks that have stopped side by side are followed alike. -/
private theorem likewise_of_walks {x y : Wiring.Moment} {outcome : Except Failure Unit}
    (walked : (Wiring.walk {} g).exec { settings := e.settings } w₁ = (outcome, x.wiring, x.world))
    (walked' : (Wiring.walk {} g').exec { settings := e.settings } w₁ = (outcome, y.wiring, y.world))
    (abreast : Wiring.Abreast g g' e.settings w₁ x y)
    (finished : outcome = .ok () → x.done = g.chores [] ∧ y.done = g'.chores [])
    (noSpawn : ∀ failures, outcome ≠ .error (.spawn failures)) :
    Likewise w ((spawn item values).exec e w) ((spawn item' values).exec e w) := by
  obtain ⟨left, right, -, twins⟩ := abreast
  obtain ⟨result, e₁, w₂, more, ran, after, trace, quiet, opens⟩ := spawn_of_walk sound begins walked left
  obtain ⟨result', e₂, w₃, more', ran', after', trace', quiet', opens'⟩ := spawn_of_walk sound begins' walked' right
  have peers := twins.imp fun _ _ => Start.Twin.peer
  have processes : y.wiring.processes = x.wiring.processes :=
    right.roster.entries.trans
      ((Start.filterMap_peers peers fun _ _ => Start.Peer.entry?).trans left.roster.entries.symm)
  have failures : y.wiring.failures = x.wiring.failures :=
    right.roster.failures.trans
      ((Start.filterMap_peers peers fun _ _ => Start.Peer.failure?).trans left.roster.failures.symm)
  obtain ⟨same, counted⟩ := after.sameEnd after' regrouped processes failures
  rw [ran, ran']
  refine ⟨same, counted, g.renumber g' w₁.nextDescriptor, _, _, trace, trace', regrouped.renumber_injective _, ?_, ?_,
    fun completes => ?_⟩
  · intro k old
    refine Graph.Regrouped.renumber_other _ ?_
    rw [List.mem_range'_1, begins.passes.nextDescriptor]
    omega
  · rw [List.filter_append, List.filter_append, quiet, quiet', List.append_nil, List.append_nil, left.roster.shown,
      right.roster.shown]
    exact Start.map_event_peers peers
  · have isOk : outcome = .ok () := by
      cases after with
      | stopped =>
        rcases completes with ⟨h, same⟩ | ⟨failures, same⟩
        · cases same
        · exact absurd (congrArg (Except.error (α := Unit)) (Except.error.inj same)) (noSpawn failures)
      | incomplete | started => rfl
    obtain ⟨doneLeft, doneRight⟩ := finished isOk
    have all := left.opened_eq
    have all' := right.opened_eq
    rw [doneLeft] at all
    rw [doneRight] at all'
    rw [openedBy_append, openedBy_append, opens, opens', List.append_nil, List.append_nil, all, all']
    change (List.range' _ g'.size).Perm ((List.range' _ g.size).map _)
    rw [regrouped.size]
    exact (regrouped.renumber_perm _).symm

/-- The starts of two groupings do likewise, once both graphs have been built. -/
theorem likewise_of_begins (names : g.NamesNoNew w.nextDescriptor) :
    Likewise w ((spawn item values).exec e w) ((spawn item' values).exec e w) := by
  rw [← begins.passes.nextDescriptor] at names
  have together := Wiring.walks_together regrouped names (sound.passes begins.passes) e.settings
  cases together with
  | finished _ _ ranLeft ranRight doneLeft doneRight abreast =>
    exact likewise_of_walks sound begins begins' regrouped ((Wiring.exec_walk _ _ _).trans ranLeft)
      ((Wiring.exec_walk _ _ _).trans ranRight) abreast (fun _ => ⟨doneLeft, doneRight⟩) nofun
  | failed _ _ noSpawn ranLeft ranRight abreast =>
    exact likewise_of_walks sound begins begins' regrouped ((Wiring.exec_walk _ _ _).trans ranLeft)
      ((Wiring.exec_walk _ _ _).trans ranRight) abreast nofun
      fun failures same => noSpawn failures (Except.error.inj same)

end Begun

/-- Starts that fail at once try nothing and open nothing. -/
private theorem Likewise.at_once {failure failure' : Failure} {w₂ w₃ : World}
    (same : SameEnd (.error failure) (.error failure')) (noSpawn : ∀ failures, failure ≠ .spawn failures)
    (left : w₂.events = w.events) (right : w₃.events = w.events) :
    Likewise w (.error failure, e, w₂) (.error failure', e, w₃) := by
  refine ⟨same, rfl, id, [], [], by rw [left, List.append_nil], by rw [right, List.append_nil],
    Function.injective_id, fun _ _ => rfl, rfl, ?_⟩
  rintro (⟨h, same⟩ | ⟨failures, same⟩)
  · cases same
  · exact absurd (Except.error.inj same) (noSpawn failures)

/-- **Starts of the two groupings do likewise**, whatever redirects they are given. -/
theorem likewise_of_matched {l r : Graph} (matched : l.Matched r) (sound : w.Sound)
    (names : ∀ g w₁, Begins l.toItem values w g w₁ → g.NamesNoNew w.nextDescriptor) :
    Likewise w ((spawn l.toItem values).exec e w) ((spawn r.toItem values).exec e w) := by
  rcases building_parallel (matched.redirect values false) w with
    ⟨g, g', w₁, built, built', regrouped⟩ | ⟨refusal, refusal', built, built', like⟩
  · have same := regrouped.checkEndpoints
    cases checked : checkEndpoints g with
    | ok _ =>
      have begins : Begins l.toItem values w g w₁ := ⟨built, checked⟩
      exact likewise_of_begins sound begins ⟨built', same.trans checked⟩ regrouped (names g w₁ begins)
    | error refusal =>
      obtain ⟨n, drawn⟩ := exec_building (Graph.redirect l.toItem values false) w
      rw [built] at drawn
      have counted : w₁ = { w with nextNumber := n } := drawn
      have events : w₁.events = w.events := by
        rw [counted]
        rfl
      rw [exec_spawn_of_unchecked e built checked, exec_spawn_of_unchecked e built' (same.trans checked)]
      exact .at_once (.failed _) (refusal.failure_ne_spawn _) events events
  · rw [exec_spawn_of_unbuilt e built, exec_spawn_of_unbuilt e built']
    refine .at_once ?_ (refusal.failure_ne_spawn _) rfl rfl
    rcases like with rfl | ⟨isRefusal, isRefusal'⟩
    · exact .failed _
    · obtain ⟨text, failure⟩ := isRefusal w.memory
      obtain ⟨text', failure'⟩ := isRefusal' w.memory
      rw [failure, failure']
      exact .refused _ _ _ _

/-- **Piping is associative.** Joining the left two of three graphs first is refused exactly if joining the right
two first is. Otherwise, the starts of the two pipes in one system, with the same redirects, do likewise, as long
as no redirect names a descriptor that the start opens itself. -/
theorem piping_is_associative {a b c : Item} {n : Nat} (first : a.IsOlder n) (second : b.IsOlder n)
    (third : c.IsOlder n) :
    (∃ refusal refusal', (Graph.joinLeft a b c).run n = .error refusal ∧ refusal.IsRefusal ∧
      (Graph.joinRight a b c).run n = .error refusal' ∧ refusal'.IsRefusal) ∨
    ∃ l r n', (Graph.joinLeft a b c).run n = .ok (l, n') ∧ (Graph.joinRight a b c).run n = .ok (r, n') ∧
      ∀ (e : Engine) (w : World) (values : RedirectValues), w.Sound →
        (∀ g w₁, Begins l.toItem values w g w₁ → g.NamesNoNew w.nextDescriptor) →
        Likewise w ((spawn l.toItem values).exec e w) ((spawn r.toItem values).exec e w) := by
  rcases Graph.joinings_match first second third with refused | ⟨l, r, n', ranLeft, ranRight, matched⟩
  · exact .inl refused
  · exact .inr ⟨l, r, n', ranLeft, ranRight, fun e w values sound names => likewise_of_matched matched sound names⟩

/-- A command with some redirects. -/
def redirectedItem (r : Redirects) : Item := (Graph.leaf 0 (letterItem 'a') r).toItem

/-- That command in a pipe with two others, the left two of the three joined first. -/
def trioLeft (r : Redirects) : Graph :=
  .pipe 4 (.pipe 2 (.leaf 0 (letterItem 'a') r) (.leaf 1 (letterItem 'b') {}) {}) (.leaf 3 (letterItem 'a') {}) {}

/-- The same pipe, the right two of the three joined first. -/
def trioRight (r : Redirects) : Graph :=
  .pipe 4 (.leaf 0 (letterItem 'a') r) (.pipe 3 (.leaf 1 (letterItem 'b') {}) (.leaf 2 (letterItem 'a') {}) {}) {}

/-- The errors go to the descriptor of a number. -/
def errorsTo (d : Int) : Redirects :=
  { stderr := some ⟨.constant "errors", .stream ⟨.constant "descriptor", .int d⟩⟩ }

/-- The input comes from a file that is missing in a small system. -/
def inputMissing : Redirects := { stdin := some ⟨.constant "file", .file ⟨.constant "name", .str "missing"⟩ false⟩ }

/-- The start of a graph in a small system. -/
def smallStart (g : Graph) : Except Failure Handle × Engine × World :=
  (spawn g.toItem {}).exec {} (smallWorld ['a', 'b'])

private theorem errorsTo_isOlder (d : Int) : (redirectedItem (errorsTo d)).IsOlder 1 := by
  rintro _ ⟨⟩
  refine ⟨fun a member => ?_, fun a member => ?_⟩ <;> cases List.mem_singleton.mp member
  · rfl
  · exact Nat.zero_lt_one

/-- Whether what is made is new, or a descriptor of the caller below some number. -/
def isOldBelow (bound : Nat) : Making → Bool
  | .given d _ => decide (d.toInt < bound)
  | _ => true

theorem namesNoNew_of_old {g : Graph} {next : Nat}
    (old : ∀ m ∈ Chore.makings (g.chores []), isOldBelow next m = true) : g.NamesNoNew next :=
  fun _ _ made => .inl (of_decide_eq_true (old _ made))

private theorem trioLeft_names {g : Graph} {w₁ : World}
    (begins : Begins (trioLeft (errorsTo 1)).toItem {} (smallWorld ['a', 'b']) g w₁) : g.NamesNoNew 10 := by
  obtain ⟨built, -⟩ := begins
  have same : (Except.ok (trioLeft (errorsTo 1)), smallWorld ['a', 'b']) = (Except.ok g, w₁) := built
  cases same
  exact namesNoNew_of_old (by decide +kernel)

/-- If the first of three commands sends its errors to the standard output of the host, all three are started
in both groupings. -/
theorem piping_three_is_associative :
    (Graph.joinLeft (redirectedItem (errorsTo 1)) (letterItem 'b') (letterItem 'a')).run 1 =
        .ok (trioLeft (errorsTo 1), 5) ∧
      (Graph.joinRight (redirectedItem (errorsTo 1)) (letterItem 'b') (letterItem 'a')).run 1 =
        .ok (trioRight (errorsTo 1), 5) ∧
      Likewise (smallWorld ['a', 'b']) (smallStart (trioLeft (errorsTo 1))) (smallStart (trioRight (errorsTo 1))) ∧
      startedBy (smallStart (trioLeft (errorsTo 1))).2.2.events = [1001, 1002, 1003] := by
  rcases piping_is_associative (errorsTo_isOlder 1) (b := letterItem 'b') (n := 1) nofun (c := letterItem 'a') nofun
    with ⟨refusal, refusal', refused, -, -, -⟩ | ⟨l, r, n', ranLeft, ranRight, alike⟩
  · cases refused
  · cases ranLeft
    cases ranRight
    exact ⟨rfl, rfl, alike {} _ {} (smallWorld_sound ['a', 'b']) fun _ _ begins => trioLeft_names begins,
      by decide +kernel⟩

/-- If it sends them to a descriptor that the start opens itself, the grouping matters: in the left one the inner
pipe is there before the first command starts, in the right one it is not. And if a redirect cannot be resolved,
the two starts have opened differently many descriptors by then. -/
theorem piping_is_not_always_associative :
    ((Graph.joinLeft (redirectedItem (errorsTo 12)) (letterItem 'b') (letterItem 'a')).run 1 =
        .ok (trioLeft (errorsTo 12), 5) ∧
      (Graph.joinRight (redirectedItem (errorsTo 12)) (letterItem 'b') (letterItem 'a')).run 1 =
        .ok (trioRight (errorsTo 12), 5) ∧
      (smallStart (trioLeft (errorsTo 12))).1.isOk = true ∧
      startedBy (smallStart (trioLeft (errorsTo 12))).2.2.events = [1001, 1002, 1003] ∧
      (smallStart (trioRight (errorsTo 12))).1.isOk = false ∧
      startedBy (smallStart (trioRight (errorsTo 12))).2.2.events = [1001, 1002]) ∧
    (Graph.joinLeft (redirectedItem inputMissing) (letterItem 'b') (letterItem 'a')).run 1 =
        .ok (trioLeft inputMissing, 5) ∧
      (Graph.joinRight (redirectedItem inputMissing) (letterItem 'b') (letterItem 'a')).run 1 =
        .ok (trioRight inputMissing, 5) ∧
      openedBy (smallStart (trioLeft inputMissing)).2.2.events = [10, 11, 12, 13] ∧
      openedBy (smallStart (trioRight inputMissing)).2.2.events = [10, 11] :=
  ⟨⟨rfl, rfl, by decide +kernel, by decide +kernel, by decide +kernel, by decide +kernel⟩,
    rfl, rfl, by decide +kernel, by decide +kernel⟩

end Engine

end Pipework
