import Pipework.Proofs.Engine.Takers
import Pipework.Proofs.Wiring.Flow

/-!
# No data goes round

The pipes that are made for a graph connect processes. A process that writes into one stands at a
smaller depth of flow than the process that reads from it, whatever redirects lead to graphs at
whatever nodes. So no chain of pipes leads from a process back to itself.
-/

namespace Pipework

/-- A process feeds another: an output of it is the write end of a pipe that was made, and the stdin
of the other is the read end. -/
def Feeds (events : List Event) (source sink : Nat) : Prop :=
  ∃ reading writing, .pipe reading writing ∈ events ∧
    (∃ e ∈ events, e.started? = some source ∧ (e.takes .stdout writing ∨ e.takes .stderr writing)) ∧
    ∃ e ∈ events, e.started? = some sink ∧ e.takes .stdin reading

/-- Two processes run leaves of which the first stands at a smaller depth of flow. -/
private def Deeper (value : Claim → Descriptor) (starts : List Start) (source sink : Nat) : Prop :=
  ∃ s ∈ starts, ∃ t ∈ starts, (s.event value).started? = some source ∧
    (t.event value).started? = some sink ∧ Place.depth s.above.place < Place.depth t.above.place

namespace Graph.Shown

variable {g : Graph} {value : Claim → Descriptor} {w : World} {events : List Event}
variable {starts : List Start} (shown : g.Shown value w events starts) (hosted : g.Hosted w)
include shown hosted

/-- A pipe leads deeper. -/
private theorem deeper_of_feeds {source sink : Nat} (feeds : Feeds events source sink) :
    Deeper value starts source sink := by
  obtain ⟨reading, writing, pipe, ⟨e, isFirst, isSource, writes⟩, e', isSecond, isSink, reads⟩ := feeds
  obtain ⟨a, b, made, rfl, rfl⟩ := shown.pipe_of_mem pipe
  have allocated : ∀ c ∈ [a, b], c ∈ g.allocated := fun c member =>
    List.mem_flatMap.mpr ⟨_, made, member⟩
  have isB := allocated b (.tail _ (.head _))
  obtain ⟨t, member', rfl⟩ := shown.start_of_takes isSecond reads
  have nearest := (shown.takes hosted t member' .stdin a (allocated a (.head _))).mp reads
  have writer : ∃ s ∈ starts, s.event value = e ∧ ∃ stream, s.leaf.nearest s.above stream = some b := by
    rcases writes with writes | writes <;> obtain ⟨s, member, rfl⟩ := shown.start_of_takes isFirst writes
    · exact ⟨s, member, rfl, .stdout, (shown.takes hosted s member .stdout b isB).mp writes⟩
    · exact ⟨s, member, rfl, .stderr, (shown.takes hosted s member .stderr b isB).mp writes⟩
  obtain ⟨s, member, rfl, stream, nearestOut⟩ := writer
  exact ⟨s, member, t, member', isSource, isSink, Graph.depth_lt_of_pipe made nearestOut nearest⟩

/-- So does a chain of pipes. -/
private theorem deeper_of_chain {source sink : Nat} (chain : Relation.TransGen (Feeds events) source sink) :
    Deeper value starts source sink := by
  induction chain with
  | single feeds => exact shown.deeper_of_feeds hosted feeds
  | tail _ feeds before =>
    obtain ⟨s, member, t, member', isSource, isMiddle, less⟩ := before
    obtain ⟨t', sameMember, u, last, isMiddle', isSink, less'⟩ := shown.deeper_of_feeds hosted feeds
    have same : t = t' := shown.start_unique member' sameMember (isMiddle.trans isMiddle'.symm)
    subst same
    exact ⟨s, member, u, last, isSource, isSink, lt_trans less less'⟩

/-- No process feeds itself, directly or through others. -/
theorem acyclic (pid : Nat) : ¬ Relation.TransGen (Feeds events) pid pid := by
  intro chain
  obtain ⟨s, member, t, member', isSource, isSink, less⟩ := shown.deeper_of_chain hosted chain
  have same : s = t := shown.start_unique member member' (isSource.trans isSink.symm)
  subst same
  exact lt_irrefl _ less

end Graph.Shown

namespace Engine

variable {item : Item} {values : RedirectValues} {e e' : Engine} {w w' : World} {handle : Handle}

/-- **No data goes round.** When a graph has been started, each of its leaves as a process of its own,
no process feeds itself through the pipes that were made, neither directly nor through others. The
descriptors that the caller gives are open already. -/
theorem spawn_feeds_no_process_itself (sound : w.Sound) (hosted : handle.graph.Hosted w)
    (spawned : (spawn item values).exec e w = (.ok handle, e', w')) :
    ∃ events, w'.events = w.events ++ events ∧ (startedBy events).Nodup ∧
      (startedBy events).length = handle.graph.occurrences.length ∧
      ∀ pid, ¬ Relation.TransGen (Feeds events) pid pid := by
  obtain ⟨w₁, w₂, σ, events, launching, starts, succeeds⟩ := spawn_ok sound spawned
  have shown := succeeds.shows sound
  have trace := succeeds.account.trace
  obtain ⟨n, rfl⟩ := succeeds.begins.drawn
  exact ⟨_, trace, shown.distinct, shown.length_startedBy, shown.acyclic hosted⟩

/-- What a start of the small graph shows. -/
private def smallTrace : List Event := [
  .pipe 10 11, .pipe 12 13,
  .spawned 1001 [[.char 'a']] (some (.number 12)) (some (.number 11)) none,
  .pipe 14 15, .pipe 16 17,
  .spawned 1002 [[.char 'b']] (some (.number 10)) (some (.number 15)) (some (.number 17)),
  .spawned 1003 [[.char 'a']] (some (.number 16)) none none]

/-- In the small graph, the first process feeds the second one, which feeds the third one, and none
of them feeds itself. -/
theorem spawn_small_feeds_no_process_itself :
    ∃ handle e' w', (spawn smallGraph.toItem {}).exec {} (smallWorld ['a', 'b']) = (.ok handle, e', w') ∧
      Feeds w'.events 1001 1002 ∧ Feeds w'.events 1002 1003 ∧
      ∀ pid, ¬ Relation.TransGen (Feeds w'.events) pid pid := by
  have succeeds : ((spawn smallGraph.toItem {}).exec {} (smallWorld ['a', 'b'])).1.isOk = true := by
    decide +kernel
  have gives : (((spawn smallGraph.toItem {}).exec {} (smallWorld ['a', 'b'])).1.toOption.map
      fun h => (Chore.makings (h.graph.chores [])).filter fun
        | .given .. => true
        | _ => false) = some [] := by
    decide +kernel
  have trace : ((spawn smallGraph.toItem {}).exec {} (smallWorld ['a', 'b'])).2.2.events.filter
      (fun e => e.isStart || e.isMaking) = smallTrace := by
    decide +kernel
  generalize run : (spawn smallGraph.toItem {}).exec {} (smallWorld ['a', 'b']) = result
    at succeeds gives trace
  obtain ⟨outcome, e', w'⟩ := result
  cases outcome with
  | error failure => cases succeeds
  | ok handle =>
    have hosted : handle.graph.Hosted (smallWorld ['a', 'b']) := fun d c made =>
      absurd rfl (List.filter_eq_nil_iff.mp (Option.some.inj gives) _ made)
    obtain ⟨events, all, -, -, acyclic⟩ :=
      spawn_feeds_no_process_itself (smallWorld_sound ['a', 'b']) hosted run
    have same : w'.events = events := all
    have shows : ∀ e ∈ smallTrace, e ∈ w'.events := fun e member =>
      (List.mem_filter.mp (trace ▸ member)).1
    have first : .spawned 1001 [[.char 'a']] (some (.number 12)) (some (.number 11)) none ∈ w'.events :=
      shows _ (by decide)
    have second : .spawned 1002 [[.char 'b']] (some (.number 10)) (some (.number 15))
        (some (.number 17)) ∈ w'.events := shows _ (by decide)
    have third : .spawned 1003 [[.char 'a']] (some (.number 16)) none none ∈ w'.events :=
      shows _ (by decide)
    refine ⟨handle, e', w', rfl, ?_, ?_, same ▸ acyclic⟩
    · exact ⟨10, 11, shows _ (by decide), ⟨_, first, rfl, .inl rfl⟩, ⟨_, second, rfl, rfl⟩⟩
    · exact ⟨16, 17, shows _ (by decide), ⟨_, second, rfl, .inr rfl⟩, ⟨_, third, rfl, rfl⟩⟩

end Engine

end Pipework
