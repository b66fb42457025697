import Pipework.Proofs.Engine.Takers
import Pipework.Proofs.Wiring.Spines

/-!
# Built graphs are connected

Starting a graph redirects it once more, by the same rules by which it was built. So of a graph that was
made from commands by the builders alone, each pipe has one process at its read end and at least one at
its write end when it has been started, and no redirect of stdin or of stdout was in vain.
-/

namespace Pipework

namespace Engine

variable {item : Item} {values : RedirectValues} {e e' : Engine} {w w' : World} {handle : Handle}

/-- A graph that is started from what was built was built. -/
theorem Begins.built {w₁ : World} {graph : Graph}
    (fromItem : ∀ g, item.it.brings? = some g → g.Built)
    (fromValues : ∀ s g, (values.get s).it.brings? = some g → g.Built)
    (begins : Begins item values w graph w₁) : graph.Built := by
  obtain ⟨_, _, made⟩ := begins.made
  exact .redirect fromItem fromValues made

/-- **What the builders accept is neither shadowed nor left dangling.** When a graph that they made from
commands has been started, every pipe node and every redirect of stdin or stdout to a graph has exactly
one leaf at the read end of its pipe and at least one at the write end; every other redirect of stdin is
that of exactly one leaf, and every other redirect of stdout that of at least one. Where the descriptors
that the caller gives are open already, the trace shows as many processes. -/
theorem spawn_shadows_nothing (sound : w.Sound)
    (fromItem : ∀ g, item.it.brings? = some g → g.Built)
    (fromValues : ∀ s g, (values.get s).it.brings? = some g → g.Built)
    (spawned : (spawn item values).exec e w = (.ok handle, e', w')) :
    handle.graph.Unshadowed ∧
    ∃ events starts, w'.events = w.events ++ events ∧
      handle.graph.Shown (handle.graph.values w.nextDescriptor) w events starts ∧
      (handle.graph.Hosted w → ∀ a b, handle.graph.Connects a b →
        ∃ reading writing, .pipe reading writing ∈ events ∧
          (events.filter (Event.takes .stdin reading)).length = 1 ∧
          events.filter (Event.takes .stdout writing) ≠ []) := by
  obtain ⟨w₁, w₂, σ, events, launching, starts, succeeds⟩ := spawn_ok sound spawned
  have unshadowed := (succeeds.begins.built fromItem fromValues).joined.unshadowed
  have shown := succeeds.shows sound
  have trace := succeeds.account.trace
  obtain ⟨n, rfl⟩ := succeeds.begins.drawn
  refine ⟨unshadowed, _, starts, trace, shown, fun hosted a b connects => ?_⟩
  obtain ⟨⟨o, reads⟩, writes⟩ := unshadowed.pipes a b connects
  have made := connects.made
  have allocated : ∀ c ∈ [a, b], c ∈ handle.graph.allocated := fun c member =>
    List.mem_flatMap.mpr ⟨_, made, member⟩
  refine ⟨_, _, shown.pipe_mem made, ?_, ?_⟩
  · rw [shown.length_filter_takes hosted .stdin (allocated a (.head _)), reads]
    rfl
  · have length := shown.length_filter_takes hosted .stdout (allocated b (.tail _ (.head _)))
    intro none
    rw [none] at length
    exact writes (List.eq_nil_of_length_eq_zero length.symm)

/-- `a` piped into `b`, as the builders make it. -/
private def builtPair : Graph :=
  .pipe 102 (.leaf 100 (letterItem 'a') {}) (.leaf 101 (letterItem 'b') {}) {}

private theorem builtPair_built : builtPair.Built := by
  have made : (Graph.pipeInto (letterItem 'a') (letterItem 'b')).run 100 = .ok (builtPair, 103) := rfl
  exact .pipe (fun h brings => by cases brings) (fun h brings => by cases brings) made

/-- `a` is piped into `b`, and what `b` writes goes to another `a` by a redirect that is given at the
start: both pipes are read by one process and written by another. -/
theorem spawn_pair_shadows_nothing :
    ∃ handle e' w', (spawn builtPair.toItem { stdout := letterItem 'a' }).exec {} (smallWorld ['a', 'b']) =
      (.ok handle, e', w') ∧ handle.graph.Unshadowed ∧
      w'.events.filter (fun e => e.isStart || e.isMaking) = [
        .pipe 10 11, .pipe 12 13,
        .spawned 1001 [[.char 'a']] none (some (.number 13)) none,
        .spawned 1002 [[.char 'b']] (some (.number 12)) (some (.number 11)) none,
        .spawned 1003 [[.char 'a']] (some (.number 10)) none none] := by
  have succeeds : ((spawn builtPair.toItem { stdout := letterItem 'a' }).exec {}
      (smallWorld ['a', 'b'])).1.isOk = true := by
    decide +kernel
  have trace : ((spawn builtPair.toItem { stdout := letterItem 'a' }).exec {}
      (smallWorld ['a', 'b'])).2.2.events.filter (fun e => e.isStart || e.isMaking) = [
        .pipe 10 11, .pipe 12 13,
        .spawned 1001 [[.char 'a']] none (some (.number 13)) none,
        .spawned 1002 [[.char 'b']] (some (.number 12)) (some (.number 11)) none,
        .spawned 1003 [[.char 'a']] (some (.number 10)) none none] := by
    decide +kernel
  have fromItem : ∀ g, builtPair.toItem.it.brings? = some g → g.Built := by
    rintro g ⟨⟩
    exact builtPair_built
  have fromValues : ∀ s g, (({ stdout := letterItem 'a' } : RedirectValues).get s).it.brings? = some g →
      g.Built := by
    intro s g brings
    cases s <;> cases brings
  generalize run : (spawn builtPair.toItem { stdout := letterItem 'a' }).exec {}
    (smallWorld ['a', 'b']) = result at succeeds trace
  obtain ⟨outcome, e', w'⟩ := result
  cases outcome with
  | error failure => cases succeeds
  | ok handle =>
    have unshadowed := (spawn_shadows_nothing (smallWorld_sound ['a', 'b']) fromItem fromValues run).1
    exact ⟨handle, e', w', rfl, unshadowed, trace⟩

end Engine

end Pipework
