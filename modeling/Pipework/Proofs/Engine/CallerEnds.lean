import Pipework.Capture
import Pipework.Proofs.Engine.Handover
import Pipework.Proofs.Graph.Joined

/-!
# The ends that a caller asks for

A redirect that is given for a start alone comes last, so that it is the one that counts (`redirect_given`). Where
it leads to the caller, the handle of a start that succeeds has an end of that stream (`Succeeds.hasEndpoint`).
Where it leads from a buffer to stdin, that is the first buffer of the start (`buffers_of_redirect`).
-/

namespace Pipework

namespace Graph

variable {n n' : Nat} {g : Graph} {values : RedirectValues} {s : Stream}

private theorem claim_given {node : Graph} {append : Bool} {t : Labelled Target} {t? : Option (Labelled Target)}
    (taken : Target.ofItem? (values.get s) s append = (pure (some t) : Building _)) (noGraph : t.it.graph? = none)
    (made : (claim node values append s).run n = .ok (t?, n')) : t? = some t := by
  obtain ⟨t?', _, target, made⟩ := Building.bind_ok made
  rw [taken] at target
  cases Building.pure_ok target
  obtain ⟨isTaken, _, -, made⟩ := Building.bind_ok made
  simp only [noGraph] at made
  cases isTaken with
  | true => exact (Building.throw_ok made).elim
  | false => exact (Building.pure_ok made).symm

/-- A node is redirected to what is given for it, if that is taken as it is and is no graph. -/
theorem redirect_given {item : Item} {append : Bool} {t : Labelled Target}
    (taken : Target.ofItem? (values.get s) s append = (pure (some t) : Building _)) (noGraph : t.it.graph? = none)
    (made : (redirect item values append).run n = .ok (g, n')) : g.redirects.get s = some t ∧ g ∈ g.nodes := by
  obtain ⟨node, _, -, made⟩ := Building.bind_ok made
  obtain ⟨stdin, _, madeStdin, made⟩ := Building.bind_ok made
  obtain ⟨stdout, _, madeStdout, made⟩ := Building.bind_ok made
  obtain ⟨stderr, _, madeStderr, made⟩ := Building.bind_ok made
  have added : ({ stdin, stdout, stderr } : Redirects).get s = some t := by
    cases s with
    | stdin => exact claim_given taken noGraph madeStdin
    | stdout => exact claim_given taken noGraph madeStdout
    | stderr => exact claim_given taken noGraph madeStderr
  dsimp only at made
  split at made
  · next empty =>
    have none := List.isEmpty_iff.mp empty
    exact (List.not_mem_nil (none ▸ Redirects.mem_items added)).elim
  obtain ⟨_, _, -, made⟩ := Building.bind_ok made
  obtain ⟨r, _, madeR, made⟩ := Building.bind_ok made
  obtain ⟨number, _, -, made⟩ := Building.bind_ok made
  split at made
  case h_2 => exact (Building.throw_ok made).elim
  case h_1 redirected same =>
  cases Building.pure_ok made
  have given := Redirects.get_ofItems_append madeR added
  have carries : g.redirects = r ∧ g ∈ g.nodes := by
    cases node <;> cases same <;> exact ⟨rfl, List.mem_cons_self⟩
  exact ⟨carries.1 ▸ given, carries.2⟩

/-- A node that is redirected to the caller asks for an end of the stream. -/
theorem redirect_endpoint {item : Item} {append : Bool} (asked : values.get s = Engine.endpoint)
    (made : (redirect item values append).run n = .ok (g, n')) : s ∈ g.redirects.endpoints ∧ g ∈ g.nodes := by
  have isEnd : Target.ofItem? (values.get s) s append = (pure (some Target.callerEnd) : Building _) := by
    rw [asked]
    cases s <;> rfl
  obtain ⟨given, isNode⟩ := redirect_given isEnd rfl made
  exact ⟨List.mem_map.mpr ⟨_, List.mem_filter.mpr ⟨Redirects.mem_items given, rfl⟩, rfl⟩, isNode⟩

/-- A node that is redirected to a buffer is fed from it before anything else is. -/
theorem buffers_of_redirect {item i : Item} {label : Label} {append : Bool}
    (asked : values.stdin = ⟨label, .target (.buffer i)⟩)
    (made : (redirect item values append).run n = .ok (g, n')) : g.buffers[0]? = some ([], .stdin, i) := by
  have isBuffer : Target.ofItem? (values.get .stdin) .stdin append
      = (pure (some ⟨label, .buffer i⟩) : Building _) := by
    rw [RedirectValues.get, asked]
    rfl
  obtain ⟨given, -⟩ := redirect_given isBuffer rfl made
  have first : ∃ rest, g.chores [] = Chore.ofRedirects [] g.redirects ++ rest := by
    cases g <;> exact ⟨_, rfl⟩
  obtain ⟨rest, chores⟩ := first
  generalize g.redirects = r at given chores
  have items : r.items = (.stdin, ⟨label, .buffer i⟩) :: [.stdout, .stderr].filterMap fun s => (r.get s).map (s, ·) := by
    rw [Redirects.items, Stream.all, List.filterMap_cons, given]
    rfl
  rw [buffers, chores, Chore.ofRedirects, items]
  rfl

end Graph

namespace Engine

variable {item : Item} {values : RedirectValues} {e e' : Engine} {w w' w₁ w₂ : World}
variable {handle : Handle} {σ : Wiring} {events launching : List Event} {starts : List Start}

/-- The caller has the ends that it asked for. -/
theorem Succeeds.hasEndpoint (succeeds : Succeeds item values e w handle e' w' w₁ w₂ σ events launching starts)
    {s : Stream} (asked : values.get s = endpoint) : (handle.endOf s).isSome := by
  obtain ⟨_, _, made⟩ := succeeds.begins.made
  obtain ⟨isEnd, isNode⟩ := Graph.redirect_endpoint asked made
  have among : s ∈ handle.graph.endpoints.map (·.2) := by
    rw [map_snd_endpoints]
    exact List.mem_flatMap.mpr ⟨_, isNode, isEnd⟩
  obtain ⟨⟨place, _⟩, isEndpoint, rfl⟩ := List.mem_map.mp among
  have given := (Wiring.endOf_iff succeeds.progress.served (nodup_endpoints succeeds.begins.checked) _ _).mpr
    ⟨place, isEndpoint, rfl⟩
  rw [succeeds.handle]
  cases ‹Stream› <;> exact Option.isSome_iff_exists.mpr ⟨_, given⟩

end Engine

end Pipework
