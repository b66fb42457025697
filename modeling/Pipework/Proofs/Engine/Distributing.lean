import Pipework.Proofs.Engine.Flattening
import Pipework.Proofs.Engine.Handover
import Pipework.Proofs.Wiring.Distributing
import Pipework.Proofs.Wiring.Verdicts

/-!
# Boundary redirects distribute over a pipeline

The input and the output of a pipeline can be redirected as a whole, or at its first and its last stage before they are
joined. Both are built in the same cases, and the starts do the same (`Mirrors`): the same commands are started in the
same order, on the same streams but for the numbers of the descriptors that the starts open themselves, pumps move the
same, and the caller gets the same ends.

What differs is when the two redirects are served: those of the whole before anything else, those of the ends when the
walk comes to the first and to the last stage. So a start with redirects of the whole may stop before it tries a
command that the other one has started by then (`Distributes`). And a graph that a redirect leads to gets what comes to
the node with the redirect from above, not what that node redirects: if the last stage passes its errors on to a
graph, it matters where stdout is redirected.
-/

namespace Pipework

/-- In a graph of nodes the check passes exactly if no two redirects ask for an end of one stream. -/
theorem checkEndpoints_ok_iff {g : Graph} (whole : g.Whole) :
    checkEndpoints g = .ok () ↔ (g.endpoints.map (·.2)).Nodup := by
  refine ⟨nodup_endpoints, fun distinct => ?_⟩
  cases checked : checkEndpoints g with
  | ok _ => rfl
  | error refusal =>
    rcases checkEndpoints_error checked with ⟨s, -, twice⟩ | ⟨held, member, -⟩
    · rw [Graph.requests, ← Graph.count_endpoints, ← map_snd_endpoints] at twice
      have once := List.nodup_iff_count_le_one.mp distinct s
      omega
    · cases whole _ member

namespace Engine

section Completes

variable {g : Graph} {e : Engine} {w : World} (whole : g.Whole)
include whole

/-- Without further redirects a graph is started as it is. -/
private theorem built_alone (w : World) : (building (Graph.redirect g.toItem {} false)).exec w = (.ok g, w) := by
  have isNode := whole g (Graph.self_mem_nodes g)
  cases g <;> first | exact exec_building_alone _ _ w | cases isNode

private theorem begins_alone (checked : checkEndpoints g = .ok ()) (w : World) : Begins g.toItem {} w g w :=
  ⟨built_alone whole w, checked⟩

/-- **A start comes to the end of its walk exactly if its ends can be handed out and its chores can be done.** -/
theorem completes_iff (sound : w.Sound) : Completes ((spawn g.toItem {}).exec e w).1 ↔
    checkEndpoints g = .ok () ∧ Chore.AllDoable w [] (g.chores []) := by
  cases checked : checkEndpoints g with
  | error refusal =>
    rw [exec_spawn_of_unchecked e (built_alone whole w) checked]
    refine ⟨?_, fun both => nomatch both.1⟩
    rintro (⟨h, same⟩ | ⟨failures, same⟩)
    · cases same
    · exact absurd (Except.error.inj same) (refusal.failure_ne_spawn _ _)
  | ok _ =>
    have begins := begins_alone whole checked w
    have filed : w.Filed [] w := .of_same rfl rfl rfl rfl
    have ends := Chore.performAll_ok_iff filed (g.values w.nextDescriptor) (g.chores []) { settings := e.settings }
    have noSpawn := Chore.performAll_ne_spawn (g.values w.nextDescriptor) (g.chores []) { settings := e.settings } w
    obtain ⟨done, -, events, starts, -, progress, -⟩ := Wiring.walk_progress g e.settings w sound
    rw [← Wiring.exec_walk] at ends noSpawn
    generalize walked : (Wiring.walk {} g).exec { settings := e.settings } w = walk at ends noSpawn progress
    obtain ⟨outcome, σ, w₁⟩ := walk
    obtain ⟨result, e', w₂, more, ran, after, -⟩ := spawn_of_walk sound begins walked progress
    rw [ran, ← ends]
    cases after with
    | stopped =>
      refine ⟨?_, fun both => nomatch both.2⟩
      rintro (⟨h, same⟩ | ⟨failures, same⟩)
      · cases same
      · cases same
        exact absurd rfl (noSpawn failures)
    | incomplete failed => exact ⟨fun _ => ⟨rfl, rfl⟩, fun _ => .inr ⟨_, rfl⟩⟩
    | started fine graph processes => exact ⟨fun _ => ⟨rfl, rfl⟩, fun _ => .inl ⟨_, rfl⟩⟩

/-- What a start that comes to the end of its walk has done by then, and what becomes of it. -/
private theorem walk_of_completes (sound : w.Sound) (completes : Completes ((spawn g.toItem {}).exec e w).1) :
    ∃ events starts σ w₁ result e' w₂ more,
      Wiring.Progress (g.values w.nextDescriptor) e.settings w w₁ (g.chores []) σ events starts ∧
      (∀ s ∈ starts, Wiring.CameTo g e.settings w s) ∧ (spawn g.toItem {}).exec e w = (result, e', w₂) ∧
      AfterWalk e g σ (.ok ()) result e' ∧ w₂.events = w.events ++ (events ++ more) ∧
      more.filter Event.isStart = [] ∧ more.filter Event.isMaking = [] := by
  obtain ⟨checked, doable⟩ := (completes_iff whole sound).mp completes
  have filed : w.Filed [] w := .of_same rfl rfl rfl rfl
  have done := (Chore.performAll_ok_iff filed (g.values w.nextDescriptor) (g.chores []) { settings := e.settings }).mpr
    doable
  rw [← Wiring.exec_walk] at done
  generalize walked : (Wiring.walk {} g).exec { settings := e.settings } w = walk at done
  obtain ⟨outcome, σ, w₁⟩ := walk
  obtain rfl : outcome = .ok () := done
  obtain ⟨events, starts, progress, came⟩ := Wiring.walk_comes sound walked
  obtain ⟨result, e', w₂, more, ran, after, trace, quiet, opens⟩ :=
    spawn_of_walk sound (begins_alone whole checked w) walked progress
  exact ⟨events, starts, σ, w₁, result, e', w₂, more, progress, came, ran, after, trace, quiet, filter_isMaking opens⟩

end Completes

/-! ## The same in another order -/

/-- Two handles of the same processes. Their pumps move the same, and the caller has the same ends, under other
numbers. -/
structure SameHold (ρ : Nat → Nat) (h h' : Handle) : Prop where
  processes : h'.processes = h.processes
  pumps : ∃ pumps pumps' launching launching', Pump.Launches pumps h.pumps launching ∧
    Pump.Launches pumps' h'.pumps launching' ∧
    ((pumps.map Pump.charge).map (Charge.renumbered ρ)).Perm (pumps'.map Pump.charge)
  ends : ∀ s, h'.endOf s = (h.endOf s).map ρ

/-- The same outcome of two starts that come to the ends of their walks. -/
inductive SameVerdict (ρ : Nat → Nat) : Except Failure Handle → Except Failure Handle → Prop
  | started {h h' : Handle} (hold : SameHold ρ h h') : SameVerdict ρ (.ok h) (.ok h')
  | failed (failures : List SpawnFailure) : SameVerdict ρ (.error (.spawn failures)) (.error (.spawn failures))

/-- Two starts in one system that do the same, but for the numbers of the descriptors that they open, and for the
order in which they open them. -/
structure Mirrors (w : World) (x y : Except Failure Handle × Engine × World) : Prop where
  engine : y.2.1 = x.2.1
  trace : ∃ ρ events events', x.2.2.events = w.events ++ events ∧ y.2.2.events = w.events ++ events' ∧
    Function.Injective ρ ∧ (∀ k < w.nextDescriptor, ρ k = k) ∧ SameVerdict ρ x.1 y.1 ∧
    events'.filter Event.isStart = (events.filter Event.isStart).map (Event.renamed ρ) ∧
    ((events.filter Event.isMaking).map (Event.renumbered ρ)).Perm (events'.filter Event.isMaking)

section Handed

variable {item : Item} {values : RedirectValues} {e e' : Engine} {w w' : World} {h : Handle}

/-- What a handle holds can be read off its graph. -/
private theorem handed_over (sound : w.Sound) (spawned : (spawn item values).exec e w = (.ok h, e', w')) :
    (∃ launching, Pump.Launches (h.graph.pumps e.settings w.nextDescriptor) h.pumps launching) ∧
      ∀ s d, h.endOf s = some d ↔ (s, d) ∈ h.graph.ends w.nextDescriptor := by
  obtain ⟨w₁, σ, w₂, events, launching, starts, -, -, -, keeps, -⟩ := spawn_conserves_descriptors sound spawned
  refine ⟨⟨launching, keeps.pumps⟩, fun s d => ?_⟩
  rw [keeps.ends, Graph.ends, List.mem_map]
  constructor
  · rintro ⟨place, member, rfl⟩
    exact ⟨(place, s), member, rfl⟩
  · rintro ⟨⟨place, s'⟩, member, same⟩
    cases same
    exact ⟨place, member, rfl⟩

end Handed

section Rearranged

variable {φ : Claim → Claim} {l r : Graph} {e : Engine} {w : World}
variable (whole : l.Whole ∧ r.Whole) (rearranged : l.Rearranged φ r) (sound : w.Sound)
include whole rearranged sound

omit sound in
/-- The same ends are asked for. -/
private theorem checkEndpoints_rearranged : checkEndpoints r = .ok () ↔ checkEndpoints l = .ok () := by
  have streams (g : Graph) : g.endpoints.map (·.2) = (g.ends 0).map (·.1) := by
    rw [Graph.ends, List.map_map]
    rfl
  have perm := (rearranged.ends 0).map (·.1)
  rw [List.map_map] at perm
  rw [checkEndpoints_ok_iff whole.1, checkEndpoints_ok_iff whole.2, streams, streams]
  exact perm.nodup_iff.symm

omit whole in
/-- Two handles that were handed over at the ends of such starts. -/
private theorem sameHold {item item' : Item} {values values' : RedirectValues} {e₁ e₂ : Engine} {w₁ w₂ : World}
    {h h' : Handle} (spawned : (spawn item values).exec e w = (.ok h, e₁, w₁))
    (spawned' : (spawn item' values').exec e w = (.ok h', e₂, w₂)) (graph : h.graph = l) (graph' : h'.graph = r)
    (processes : h'.processes = h.processes) : SameHold (l.renumberBy φ r w.nextDescriptor) h h' := by
  obtain ⟨⟨launching, launches⟩, ends⟩ := handed_over sound spawned
  obtain ⟨⟨launching', launches'⟩, ends'⟩ := handed_over sound spawned'
  rw [graph] at launches ends
  rw [graph'] at launches' ends'
  refine ⟨processes, ⟨_, _, _, _, launches, launches', rearranged.charges _ _⟩, fun s => ?_⟩
  have moved := rearranged.ends w.nextDescriptor
  refine Option.ext fun d => ?_
  rw [ends', ← moved.mem_iff, List.mem_map, Option.map_eq_some_iff]
  constructor
  · rintro ⟨⟨s', d'⟩, member, same⟩
    cases same
    exact ⟨d', (ends _ _).mpr member, rfl⟩
  · rintro ⟨d', isEnd, rfl⟩
    exact ⟨(s, d'), (ends _ _).mp isEnd, rfl⟩

/-- **Starts of two graphs with the same chores in another order do the same**, if both come to the ends of their
walks. -/
theorem mirrors_of_completes (names : l.NamesNoNew w.nextDescriptor)
    (completes : Completes ((spawn l.toItem {}).exec e w).1) (completes' : Completes ((spawn r.toItem {}).exec e w).1) :
    Mirrors w ((spawn l.toItem {}).exec e w) ((spawn r.toItem {}).exec e w) := by
  obtain ⟨events, starts, σ, w₁, result, e₁, w₂, more, left, came, ran, after, trace, quiet, makes⟩ :=
    walk_of_completes whole.1 sound completes
  obtain ⟨events', starts', σ', w₁', result', e₂, w₂', more', right, came', ran', after', trace', quiet', makes'⟩ :=
    walk_of_completes whole.2 sound completes'
  have peers := Wiring.peers_of_ends rearranged names left right came came'
  have processes : σ'.processes = σ.processes := right.roster.entries.trans
    ((Start.filterMap_peers peers fun _ _ => Start.Peer.entry?).trans left.roster.entries.symm)
  have failures : σ'.failures = σ.failures := right.roster.failures.trans
    ((Start.filterMap_peers peers fun _ _ => Start.Peer.failure?).trans left.roster.failures.symm)
  have verdict : SameVerdict (l.renumberBy φ r w.nextDescriptor) result result' ∧ e₂ = e₁ := by
    cases after with
    | incomplete failed =>
      cases after' with
      | incomplete failed' =>
        rw [failures]
        exact ⟨.failed _, rfl⟩
      | started fine => exact absurd (failures.symm.trans fine) failed
    | started fine graph kept =>
      cases after' with
      | incomplete failed => exact absurd (failures.trans fine) failed
      | started fine' graph' kept' =>
        exact ⟨.started (sameHold rearranged sound ran ran' graph graph' (by rw [kept', kept, processes])),
          by rw [processes]⟩
  rw [ran, ran']
  refine ⟨verdict.2, l.renumberBy φ r w.nextDescriptor, _, _, trace, trace', rearranged.carries.renumber_injective _,
    fun k old => ?_, verdict.1, ?_, ?_⟩
  · refine Graph.Carries.renumber_other _ ?_
    rw [List.mem_range'_1]
    omega
  · rw [List.filter_append, List.filter_append, quiet, quiet', List.append_nil, List.append_nil, left.roster.shown,
      right.roster.shown]
    exact Start.map_event_peers peers
  · rw [List.filter_append, List.filter_append, makes, makes', List.append_nil, List.append_nil, left.served.shown,
      right.served.shown]
    exact rearranged.carries.openings _

end Rearranged

/-! ## Redirects of the whole and of the ends -/

/-- The start of stages that are redirected as a whole, and that of the same stages with redirects of those at the
ends: `l` and `r` were built, of stages that make `joined` without them. -/
structure Distributes (joined l r : Graph) (X Y : Target) (e : Engine) (w : World) : Prop where
  /-- Where the redirects of the ends can be served, those of the whole can. -/
  outside : Completes ((spawn r.toItem {}).exec e w).1 → Completes ((spawn l.toItem {}).exec e w).1
  /-- The other way round that may fail where something is read that stdout is redirected to. -/
  inside : l.ReadsNoOutput w → Completes ((spawn l.toItem {}).exec e w).1 → Completes ((spawn r.toItem {}).exec e w).1
  same : l.NamesNoNew w.nextDescriptor → Completes ((spawn l.toItem {}).exec e w).1 →
    Completes ((spawn r.toItem {}).exec e w).1 → Mirrors w ((spawn l.toItem {}).exec e w) ((spawn r.toItem {}).exec e w)
  /-- What the two redirects ask for is opened once, and so is what the stages ask for without them. -/
  opened : Completes ((spawn l.toItem {}).exec e w).1 → ∃ events, ((spawn l.toItem {}).exec e w).2.2.events =
    w.events ++ events ∧ events.filter Event.isMaking = ((X.making? [] .stdin).toList ++
      ((Y.making? [] .stdout).toList ++ Chore.makings (joined.chores []))).filterMap
        (Making.event? (l.values w.nextDescriptor))

private theorem distributes {stages : List Item} {joined l r : Graph} {X Y : Target} {e : Engine} {w : World}
    (distributed : Graph.Distributed stages joined l r X Y) (keeps : Graph.KeepsErrors stages) (sound : w.Sound) :
    Distributes joined l r X Y e w := by
  obtain ⟨φ, rearranged⟩ := distributed.rearranged keeps
  obtain ⟨whole, makings, -, doable⟩ := distributed
  have checked := checkEndpoints_rearranged whole rearranged
  have outside := completes_iff (e := e) whole.1 sound
  have inside := completes_iff (e := e) whole.2 sound
  rw [checked] at inside
  refine ⟨fun completes => ?_, fun readsNone completes => ?_, fun names completes completes' => ?_, fun completes => ?_⟩
  · obtain ⟨isChecked, all⟩ := inside.mp completes
    exact outside.mpr ⟨isChecked, (doable keeps w).1 all⟩
  · obtain ⟨isChecked, all⟩ := outside.mp completes
    exact inside.mpr ⟨isChecked, (doable keeps w).2 readsNone all⟩
  · exact mirrors_of_completes whole rearranged sound names completes completes'
  · obtain ⟨events, starts, σ, w₁, result, e₁, w₂, more, progress, -, ran, -, trace, -, makes⟩ :=
      walk_of_completes whole.1 sound completes
    rw [ran]
    refine ⟨_, trace, ?_⟩
    rw [List.filter_append, makes, List.append_nil, progress.served.shown, makings]

/-- **Boundary redirects distribute over a pipeline.** Take stages that can be joined, with nodes of known kinds at the
ends, and targets for stdin and stdout that are no graphs. Redirecting the whole is refused exactly if redirecting
stdin of the first stage and stdout of the last one is. Otherwise, if of several stages the last one does not itself
pass its errors on to a graph, the starts are related: if the one with redirects of the ends comes to the end of its
walk, so does the one with redirects of the whole, and the other way round if nothing reads the file that stdout is
redirected to. When both do, they do the same but for the numbers and the order of what they open, as long as no
redirect names a descriptor that the start opens itself, and what the two redirects ask for is opened once. -/
theorem boundary_redirects_distribute {stages : List Item} {x y : Item} {append : Bool} {n n₀ : Nat} {joined : Graph}
    (older : ∀ i ∈ stages, i.IsOlder n) (known : Graph.KnowsEnds stages) (plain : x.IsPlain ∧ y.IsPlain)
    (ran : (Graph.joinAll stages).run n = .ok (joined, n₀)) :
    (∃ refusal refusal', (Graph.pipeline stages { stdin := x, stdout := y } append).run n = .error refusal ∧
      refusal.IsRefusal ∧ (Graph.joinInside x y append stages).run n = .error refusal' ∧ refusal'.IsRefusal) ∨
    ∃ l r m m' X Y, (Graph.pipeline stages { stdin := x, stdout := y } append).run n = .ok (l, m) ∧
      (Graph.joinInside x y append stages).run n = .ok (r, m') ∧ x.Means .stdin append X ∧ y.Means .stdout append Y ∧
      (Graph.KeepsErrors stages → ∀ (e : Engine) (w : World), w.Sound → Distributes joined l r X Y e w) := by
  rcases Graph.distributed older known plain ran with refused | ⟨l, r, m, m', X, Y, built, built', isX, isY, distributed⟩
  · exact .inl refused
  · exact .inr ⟨l, r, m, m', X, Y, built, built', isX, isY, fun keeps e w sound => distributes distributed keeps sound⟩

/-- Two bytes, to be read from stdin. -/
def twoBytes : Item := ⟨.constant "bytes", .bytes [104, 105]⟩

/-- A file of some name. -/
def fileNamed (name : Text) : Item := ⟨.constant "name", .str name⟩

/-- Two commands, to be joined. -/
def pairStages : List Item := [letterItem 'a', letterItem 'b']

/-- They are joined, and the whole reads the two bytes and writes to a file. -/
def pairOutside : Graph :=
  .pipe 7 (.leaf 0 (letterItem 'a') {}) (.leaf 1 (letterItem 'b') {})
    { stdin := some ⟨.own 3, .buffer twoBytes⟩, stdout := some ⟨.own 5, .file (fileNamed "y") false⟩, label := .own 6 }

/-- The first one reads the two bytes, the second one writes to the file, and then they are joined. -/
def pairInside : Graph :=
  .pipe 9 (.leaf 3 (letterItem 'a') { stdin := some ⟨.own 1, .buffer twoBytes⟩, label := .own 2 })
    (.leaf 8 (letterItem 'b') { stdout := some ⟨.own 6, .file (fileNamed "y") false⟩, label := .own 7 }) {}

private theorem completes_of_isOk {outcome : Except Failure Handle} (isOk : outcome.isOk = true) : Completes outcome := by
  cases outcome with
  | ok h => exact .inl ⟨h, rfl⟩
  | error failure => cases isOk

private theorem pairStages_part? : ∀ i ∈ pairStages, i.part? = none := by
  intro i member
  rcases member with _ | ⟨_, _ | ⟨_, none⟩⟩
  · rfl
  · rfl
  · cases none

/-- The two commands are started in the same way, and the file is opened once. -/
theorem pair_is_redirected_alike :
    (Graph.pipeline pairStages { stdin := twoBytes, stdout := fileNamed "y" } false).run 0 = .ok (pairOutside, 8) ∧
      (Graph.joinInside twoBytes (fileNamed "y") false pairStages).run 0 = .ok (pairInside, 10) ∧
      Mirrors (smallWorld ['a', 'b']) (smallStart pairOutside) (smallStart pairInside) ∧
      startedBy (smallStart pairInside).2.2.events = [1001, 1002] ∧
      (smallStart pairInside).2.2.events.filter Event.isMaking = [.pipe 10 11, .pipe 12 13, .opened "y" .write 14] := by
  have noPart := pairStages_part?
  rcases @boundary_redirects_distribute pairStages twoBytes (fileNamed "y") false 0 _ _
      (fun i member g isPart => nomatch (noPart i member).symm.trans isPart)
      (fun i g isEnd isPart => nomatch (noPart i (isEnd.elim List.mem_of_head? List.mem_of_getLast?)).symm.trans isPart)
      ⟨trivial, trivial⟩ rfl
    with ⟨refusal, refusal', refused, -⟩ | ⟨l, r, m, m', X, Y, built, built', -, -, starts⟩
  · cases refused
  · cases built
    cases built'
    have keeps : Graph.KeepsErrors pairStages := fun first mid last g split isPart =>
      nomatch (noPart last (by rw [split]; simp)).symm.trans isPart
    have distributes := starts keeps {} _ (smallWorld_sound ['a', 'b'])
    have succeeds : (smallStart pairOutside).1.isOk = true ∧ (smallStart pairInside).1.isOk = true := by decide +kernel
    refine ⟨rfl, rfl, distributes.same (namesNoNew_of_old ?_) (completes_of_isOk succeeds.1)
      (completes_of_isOk succeeds.2), by decide +kernel, by decide +kernel⟩
    decide +kernel

/-- What comes of starting what was built, in a small system: whether it succeeds, and the output of each command that
is started. -/
def outputsOf (built : Except BuildError (Graph × Nat)) : Option (Bool × List (Option Descriptor)) :=
  built.toOption.map fun (g, _) => ((smallStart g).1.isOk, (smallStart g).2.2.events.filterMap fun
    | .spawned _ _ _ stdout _ => some stdout
    | _ => none)

/-- Stages are redirected as a whole. -/
def outside (stages : List Item) (y : Item) : Option (Bool × List (Option Descriptor)) :=
  outputsOf ((Graph.pipeline stages { stdin := twoBytes, stdout := y } false).run 2)

/-- Stages are redirected at the ends. -/
def inside (stages : List Item) (y : Item) : Option (Bool × List (Option Descriptor)) :=
  outputsOf ((Graph.joinInside twoBytes y false stages).run 2)

/-- The last of two stages passes its errors on to another command. -/
def errorsPassedOn : List Item :=
  [letterItem 'a', (Graph.leaf 1 (letterItem 'b')
    { stderr := some ⟨.constant "errors", .graph (.leaf 0 (letterItem 'a') {})⟩ }).toItem]

/-- The first of two stages is a group, of which a member reads a file that is not there. -/
def readsFile : List Item :=
  [(Graph.group 1 (.constant "members") [.leaf 0 (letterItem 'a')
    { stdin := some ⟨.constant "file", .file (fileNamed "y") false⟩ }] {}).toItem, letterItem 'b']

/-- A command to which the last stage passes its errors on writes where the last stage was to write: to the file if the
whole is redirected, and to the output of the host if the last stage is. If the file has no name that can be opened,
commands are started before that is found out only if the last stage is redirected; if a command reads it, it is there
in time only if the whole is. A redirect that names a descriptor which the start opens may find it open or not. And a
node of another kind can be joined, but not redirected. -/
theorem boundary_redirects_do_not_always_distribute :
    outside errorsPassedOn (fileNamed "y") = some (true, [some (.number 14), some (.number 12), some (.number 12)]) ∧
    inside errorsPassedOn (fileNamed "y") = some (true, [some (.number 11), some (.number 14), none]) ∧
    outside pairStages (fileNamed "") = some (false, []) ∧
    inside pairStages (fileNamed "") = some (false, [some (.number 11)]) ∧
    outside readsFile (fileNamed "y") = some (true, [some (.number 14), some (.number 12)]) ∧
    inside readsFile (fileNamed "y") = some (false, []) ∧
    outside [redirectedItem (errorsTo 14), letterItem 'b'] (fileNamed "y") =
      some (true, [some (.number 14), some (.number 12)]) ∧
    inside [redirectedItem (errorsTo 14), letterItem 'b'] (fileNamed "y") = some (false, [some (.number 14)]) ∧
    outside [(Graph.unknown 0 "Custom").toItem, letterItem 'b'] (fileNamed "y") = some (false, []) ∧
    inside [(Graph.unknown 0 "Custom").toItem, letterItem 'b'] (fileNamed "y") = none := by
  refine ⟨?_, ?_, ?_, ?_, ?_, ?_, ?_, ?_, ?_, ?_⟩ <;> decide +kernel

end Engine

end Pipework
