import Pipework.Proofs.Engine.Phases
import Pipework.Proofs.Wiring.Occurrences
import Pipework.Proofs.Wiring.Readiness

/-!
# A failed start

When `spawn` fails, nothing of it is left, wherever it failed. If the walk of the graph came to its
end, every command was tried once, in order, and the failure names exactly those that could not be
started; otherwise the failure is the one that stopped the walk.
-/

namespace Pipework

namespace World.NothingLeft

variable {w₀ w w' : World} {events : List Event}

/-- Where only numbers were drawn, nothing can be left. -/
theorem of_passes (sound : w.Sound) (passes : w.Passes w' []) : w.NothingLeft w' [] where
  trace := passes.trace
  descriptors := passes.descriptors
  closed := by simp
  own := by simp
  fresh := by simp
  threads := by simp
  reaped := by simp
  kills := .of_none (by simp)
  sound := sound.passes passes

/-- The same, seen from before a stretch in which nothing shows. -/
theorem before (nothing : w.NothingLeft w' events) (passes : w₀.Passes w []) :
    w₀.NothingLeft w' events where
  trace := by rw [nothing.trace, passes.trace, List.append_nil]
  descriptors := nothing.descriptors.trans passes.descriptors
  closed := nothing.closed
  own := nothing.own
  fresh := by
    rw [← passes.descriptors]
    exact nothing.fresh
  threads := nothing.threads
  reaped := nothing.reaped
  kills := nothing.kills
  sound := nothing.sound

/-- A line in the log does not change anything. -/
theorem written (nothing : w₀.NothingLeft w events) (line : LogLine) :
    w₀.NothingLeft (w.written line) events where
  trace := nothing.trace
  descriptors := nothing.descriptors
  closed := nothing.closed
  own := nothing.own
  fresh := nothing.fresh
  threads := nothing.threads
  reaped := nothing.reaped
  kills := nothing.kills
  sound := nothing.sound.passes (w.passes_written line)

end World.NothingLeft

/-- Every leaf of a graph was tried once, in order, with the command that it holds, and the trace
shows it. -/
structure Graph.Tried (g : Graph) (value : Claim → Descriptor) (events : List Event)
    (starts : List Start) : Prop where
  leaves : starts.map (·.leaf) = g.leaves
  commands : ∀ s ∈ starts, s.leaf.commandOf = .ok s.command
  shown : events.filter Event.isStart = starts.map (Start.event value)

/-- What has been tried when a walk has done all chores. -/
theorem Wiring.Progress.tried {g : Graph} {value : Claim → Descriptor} {settings : StartSettings}
    {w₀ w : World} {σ : Wiring} {events more : List Event} {starts : List Start}
    (progress : Progress value settings w₀ w (g.chores []) σ events starts)
    (quiet : more.filter Event.isStart = []) :
    g.Tried value (events ++ more) starts where
  leaves := by
    rw [← g.map_fst_occurrences, Graph.occurrences, ← progress.roster.occurrences, List.map_map]
    rfl
  commands := progress.roster.commands
  shown := by rw [List.filter_append, quiet, List.append_nil, progress.roster.shown]

namespace Engine

variable {item : Item} {values : RedirectValues} {e e' : Engine} {w w' : World} {failure : Failure}

/-- Wherever a start fails, nothing of it is left. -/
theorem nothing_of_spawn_failed (sound : w.Sound)
    (failed : (spawn item values).exec e w = (.error failure, e', w')) : ∃ events, w.NothingLeft w' events := by
  cases spawn_ends sound failed with
  | refused stuck => exact ⟨[], .of_passes sound (World.passes_of_same rfl rfl rfl rfl rfl rfl rfl)⟩
  | stopped begins walked nothing => exact ⟨_, nothing.before begins.passes⟩
  | incomplete begins walked progress unstarted quiet nothing =>
    exact ⟨_, (nothing.before begins.passes).written _⟩

/-- **A failed start leaves nothing behind**, and says why it failed. -/
theorem spawn_failed_leaves_nothing (sound : w.Sound)
    (failed : (spawn item values).exec e w = (.error failure, e', w')) :
    ∃ events, w.NothingLeft w' events ∧
      ((events = [] ∧ e' = e ∧ ∀ graph w₁, ¬ Begins item values w graph w₁) ∨
      ∃ graph w₁, Begins item values w graph w₁ ∧
        match (Wiring.walk {} graph).exec { settings := e.settings } w₁ with
        | (.error original, _) => failure = original ∧ e' = e
        | (.ok (), _) => ∃ starts, graph.Tried (graph.values w₁.nextDescriptor) events starts ∧
            failure = .spawn (starts.filterMap Start.failure?) ∧
            starts.filterMap Start.failure? ≠ [] ∧
            e' = { e with stats := { e.stats with
              spawnFailures := e.stats.spawnFailures
                + (starts.filterMap Start.failure?).length } }) := by
  cases spawn_ends sound failed with
  | refused stuck =>
    exact ⟨[], .of_passes sound (World.passes_of_same rfl rfl rfl rfl rfl rfl rfl),
      .inl ⟨rfl, rfl, stuck⟩⟩
  | stopped begins walked nothing =>
    refine ⟨_, nothing.before begins.passes, .inr ⟨_, _, begins, ?_⟩⟩
    rw [walked]
    exact ⟨rfl, rfl⟩
  | @incomplete _ σ _ _ _ _ _ starts _ begins walked progress unstarted quiet nothing =>
    have failures : σ.failures = starts.filterMap Start.failure? := progress.roster.failures
    refine ⟨_, (nothing.before begins.passes).written _, .inr ⟨_, _, begins, ?_⟩⟩
    rw [walked]
    exact ⟨starts, progress.tried quiet, by rw [← failures],
      failures ▸ unstarted, by rw [← failures]⟩

/-- A start of the small graph where `b` is missing: both other commands are started, and nothing of
them is left. -/
theorem spawn_without_b_leaves_nothing :
    ∃ failure e' w' events, (spawn smallGraph.toItem {}).exec {} (smallWorld ['a']) =
      (.error failure, e', w') ∧
      (startedBy events).length = 2 ∧ (smallWorld ['a']).NothingLeft w' events := by
  have fails : ((spawn smallGraph.toItem {}).exec {} (smallWorld ['a'])).1.isOk = false := by
    decide +kernel
  have shows :
      (startedBy ((spawn smallGraph.toItem {}).exec {}
        (smallWorld ['a'])).2.2.events).length = 2 := by
    decide +kernel
  generalize run : (spawn smallGraph.toItem {}).exec {} (smallWorld ['a']) = result at fails shows
  obtain ⟨outcome, e', w'⟩ := result
  cases outcome with
  | ok handle => cases fails
  | error failure =>
    obtain ⟨events, nothing, -⟩ := spawn_failed_leaves_nothing (smallWorld_sound ['a']) run
    have all : w'.events = events := nothing.trace
    exact ⟨failure, e', w', events, rfl, all ▸ shows, nothing⟩

end Engine

end Pipework

/-!
## A start that a chore stops

Resolving redirects and starting commands take turns in the walk. So a redirect that cannot be resolved
stops the walk after the commands before it have been started, and these are ended again:
`late_redirect_stops_running_command` is such a start. What does hold of every start that is stopped
(`spawn_stopped_at_chore`): exactly the commands before the chore were tried, once each and in order,
each of them after everything that serves its own streams, and nothing of them is left. No command
was tried at all exactly if none comes before.
-/

namespace Pipework

namespace Engine

variable {item : Item} {values : RedirectValues} {e e' : Engine} {w w' : World} {failure : Failure}

/-- The streams of a command that was tried were resolved before. -/
theorem StoppedAt.provide {graph : Graph} {settings : StartSettings} {done : List Chore} {c : Chore}
    {events : List Event} {starts : List Start}
    (stopped : StoppedAt graph settings w failure done c events starts) {before after : List Chore}
    {leaf : Graph} {above : Lineage} (split : done = before ++ .start leaf above :: after) :
    Chore.Provide before (leaf.nearest above) := by
  obtain ⟨rest, chores⟩ := stopped.split
  have ordered : Chore.Ordered [] (graph.chores []) := Chore.ordered_chores graph nofun
  rw [chores, split, List.append_assoc, List.cons_append] at ordered
  exact ordered.provide

/-- No command was tried exactly if none comes before the chore that failed. -/
theorem StoppedAt.silent_iff {graph : Graph} {settings : StartSettings} {done : List Chore} {c : Chore}
    {events : List Event} {starts : List Start}
    (stopped : StoppedAt graph settings w failure done c events starts) :
    events.filter Event.isStart = [] ↔ ∀ leaf above, .start leaf above ∉ done := by
  have none : starts = [] ↔ done.filterMap Chore.leaf? = [] := by
    rw [← stopped.tried, List.map_eq_nil_iff]
  rw [stopped.shown, List.map_eq_nil_iff, none, List.filterMap_eq_nil_iff]
  constructor
  · intro noLeaf leaf above member
    cases noLeaf _ member
  · intro noStart d member
    cases d with
    | start leaf above => exact absurd member (noStart leaf above)
    | _ => rfl

/-- **A start that a chore stops has tried the commands before it, and no other.** -/
theorem spawn_stopped_at_chore (sound : w.Sound)
    (failed : (spawn item values).exec e w = (.error failure, e', w'))
    (other : ∀ failures, failure ≠ .spawn failures) :
    e' = e ∧ ∃ events, w.NothingLeft w' events ∧
      ((events = [] ∧ ∀ graph w₁, ¬ Begins item values w graph w₁) ∨
      ∃ graph w₁ done c starts, Begins item values w graph w₁ ∧
        StoppedAt graph e.settings w₁ failure done c events starts ∧
        (∀ before leaf above after, done = before ++ .start leaf above :: after →
          Chore.Provide before (leaf.nearest above)) ∧
        (events.filter Event.isStart = [] ↔ ∀ leaf above, .start leaf above ∉ done)) := by
  cases spawn_ends sound failed with
  | refused stuck =>
    exact ⟨rfl, [], .of_passes sound (World.passes_of_same rfl rfl rfl rfl rfl rfl rfl),
      .inl ⟨rfl, stuck⟩⟩
  | stopped begins walked nothing stopped =>
    exact ⟨rfl, _, nothing.before begins.passes, .inr ⟨_, _, _, _, _, begins, stopped,
      fun _ _ _ _ split => stopped.provide split, stopped.silent_iff⟩⟩
  | incomplete => exact absurd rfl (other _)

/-- Two commands side by side, the second of which reads a file. -/
def lateFileGraph : Graph :=
  let file : Labelled Target := ⟨.constant "file", .file ⟨.constant "name", .str "missing"⟩ false⟩
  .group 3 (.own 3) [.leaf 1 (letterItem 'a') {}, .leaf 2 (letterItem 'b') { stdin := some file }] {}

/-- Two commands side by side, the second of which is no node of a known kind. -/
def lateOddGraph : Graph := .group 3 (.own 3) [.leaf 1 (letterItem 'a') {}, .unknown 2 "Odd"] {}

private def isSystem : Failure → Bool
  | .system _ => true
  | _ => false

private def isBuild : Failure → Bool
  | .build .. => true
  | _ => false

/-- The failure of a start of `a` and `b`, and what has been started by then. -/
private def stop? (g : Graph) : Option (Failure × List Nat) :=
  match (spawn g.toItem {}).exec {} (smallWorld ['a', 'b']) with
  | (.error failure, _, w') => some (failure, startedBy w'.events)
  | (.ok _, _, _) => none

private theorem exists_stop {g : Graph} {kind : Failure → Bool} {started : List Nat}
    (stops : (stop? g).any fun stop => kind stop.1 && stop.2 == started) :
    ∃ failure e' w', (spawn g.toItem {}).exec {} (smallWorld ['a', 'b']) = (.error failure, e', w') ∧
      kind failure ∧ startedBy w'.events = started := by
  unfold stop? at stops
  generalize (spawn g.toItem {}).exec {} (smallWorld ['a', 'b']) = result at stops ⊢
  obtain ⟨outcome, e', w'⟩ := result
  cases outcome with
  | ok handle => cases stops
  | error failure =>
    rw [Option.any_some, Bool.and_eq_true, beq_iff_eq] at stops
    exact ⟨failure, e', w', rfl, stops.1, stops.2⟩

private theorem lateFile_stops :
    ∃ e e' w', (spawn lateFileGraph.toItem {}).exec {} (smallWorld ['a', 'b']) =
      (.error (.system e), e', w') ∧ startedBy w'.events = [1001] := by
  have stops : (stop? lateFileGraph).any fun stop => isSystem stop.1 && stop.2 == [1001] := by
    decide +kernel
  obtain ⟨failure, e', w', run, system, shows⟩ := exists_stop stops
  cases failure with
  | system e => exact ⟨e, e', w', run, shows⟩
  | _ => cases system

/-- In the first of them `a` has been started before the file turns out to be missing, and nothing of it
is left. -/
theorem spawn_late_file_stopped :
    ∃ failure e' w' events graph w₁ done c starts,
      (spawn lateFileGraph.toItem {}).exec {} (smallWorld ['a', 'b']) = (.error failure, e', w') ∧
      (smallWorld ['a', 'b']).NothingLeft w' events ∧ startedBy events = [1001] ∧
      StoppedAt graph {} w₁ failure done c events starts ∧
      ¬ ∀ leaf above, .start leaf above ∉ done := by
  obtain ⟨e, e', w', run, shows⟩ := lateFile_stops
  obtain ⟨-, events, nothing, stuck | ⟨graph, w₁, done, c, starts, begins, stopped, -, silent⟩⟩ :=
    spawn_stopped_at_chore (smallWorld_sound ['a', 'b']) run (by rintro _ ⟨⟩)
  · have all : w'.events = events := nothing.trace
    rw [all, stuck.1] at shows
    cases shows
  · have all : w'.events = events := nothing.trace
    rw [all] at shows
    refine ⟨_, e', w', events, graph, w₁, done, c, starts, run, nothing, shows, stopped, fun none => ?_⟩
    rw [startedBy_eq, silent.mpr none] at shows
    cases shows

/-- A file that is missing, or a node of no known kind, does not keep an earlier command from running:
both starts fail, and `a` has been started before. -/
theorem late_redirect_stops_running_command :
    (∃ e e' w', (spawn lateFileGraph.toItem {}).exec {} (smallWorld ['a', 'b']) =
      (.error (.system e), e', w') ∧ startedBy w'.events = [1001]) ∧
    ∃ e text e' w', (spawn lateOddGraph.toItem {}).exec {} (smallWorld ['a', 'b']) =
      (.error (.build e text), e', w') ∧ startedBy w'.events = [1001] := by
  refine ⟨lateFile_stops, ?_⟩
  have stops : (stop? lateOddGraph).any fun stop => isBuild stop.1 && stop.2 == [1001] := by
    decide +kernel
  obtain ⟨failure, e', w', run, build, shows⟩ := exists_stop stops
  cases failure with
  | build e text => exact ⟨e, text, e', w', run, shows⟩
  | _ => cases build

end Engine

end Pipework
