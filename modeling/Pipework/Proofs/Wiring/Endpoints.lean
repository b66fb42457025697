import Mathlib.Data.List.Nodup
import Pipework.Proofs.Wiring.Nodes
import Pipework.Proofs.Wiring.Served

/-!
# At most one end for each stream

Before a graph is started it is checked that no two redirects ask for an end of the same stream. So
among the ends that are made for the caller no stream comes up twice (`nodup_endpoints`), and where the check
fails, it names a stream of which two nodes ask for an end, or it came to a value that is no node
(`checkEndpoints_error`).
-/

namespace Pipework

/-- The streams of which a node asks for an end. -/
def Redirects.endpoints (r : Redirects) : List Stream :=
  (r.items.filter (·.2.it.isEndpoint)).map (·.1)

namespace Graph

/-- Whether a node asks for an end of a stream. -/
def asks (s : Stream) (n : Graph) : Bool := (n.redirects.get s).any (·.it.isEndpoint)

/-- How many nodes of a graph ask for an end of a stream, in the graphs that redirects lead to as well. -/
def requests (g : Graph) (s : Stream) : Nat := g.nodes.countP (asks s)

end Graph

private theorem Redirects.endpoints_eq_filter (r : Redirects) :
    r.endpoints = Stream.all.filter fun s => (r.get s).any (·.it.isEndpoint) := by
  unfold endpoints items
  induction Stream.all with
  | nil => rfl
  | cons s rest ih =>
    rw [List.filterMap_cons, List.filter_cons, ← ih]
    cases r.get s with
    | none => rfl
    | some t => cases isEndpoint : t.it.isEndpoint <;> simp [isEndpoint]

/-- A node asks for one end of a stream, if it asks for any. -/
private theorem Redirects.count_endpoints (r : Redirects) (s : Stream) :
    r.endpoints.count s = if (r.get s).any (·.it.isEndpoint) then 1 else 0 := by
  rw [r.endpoints_eq_filter]
  split
  · next asks =>
    have kept : (Stream.all.filter fun t => (r.get t).any (·.it.isEndpoint)).count s = Stream.all.count s :=
      List.count_filter asks
    rw [kept]
    cases s <;> rfl
  · next asksNot =>
    refine List.count_eq_zero.mpr fun member => asksNot ?_
    exact (List.mem_filter.mp member).2

/-- Among all ends that nodes ask for a stream comes up once for each node that asks for it. -/
theorem Graph.count_endpoints (nodes : List Graph) (s : Stream) :
    (nodes.flatMap (·.redirects.endpoints)).count s = nodes.countP (Graph.asks s) := by
  induction nodes with
  | nil => rfl
  | cons n rest ih =>
    rw [List.flatMap_cons, List.count_append, ih, List.countP_cons, Redirects.count_endpoints, Nat.add_comm]
    rfl

private theorem claimEndpoints_ok {seen seen' : List Stream}
    {items : List (Stream × Labelled Target)} (checked : claimEndpoints seen items = .ok seen')
    (distinct : seen.Nodup) :
    seen' = ((items.filter (·.2.it.isEndpoint)).map (·.1)).reverse ++ seen ∧ seen'.Nodup := by
  induction items generalizing seen with
  | nil =>
    cases checked
    exact ⟨rfl, distinct⟩
  | cons item rest ih =>
    obtain ⟨s, t⟩ := item
    rw [claimEndpoints] at checked
    split at checked
    · next isEndpoint =>
      split at checked
      · cases checked
      · next isNew =>
        have isNew : s ∉ seen := by simpa using isNew
        obtain ⟨same, distinct'⟩ := ih checked (List.nodup_cons.mpr ⟨isNew, distinct⟩)
        refine ⟨?_, distinct'⟩
        simp [same, isEndpoint]
    · next noEndpoint =>
      obtain ⟨same, distinct'⟩ := ih checked distinct
      exact ⟨by simp [same, noEndpoint], distinct'⟩

private theorem scanEndpoints_ok {seen : List Stream} {nodes : List Graph}
    (checked : scanEndpoints seen nodes = .ok ()) (distinct : seen.Nodup) :
    (nodes.flatMap (·.redirects.endpoints)).Nodup ∧
      ∀ s ∈ nodes.flatMap (·.redirects.endpoints), s ∉ seen := by
  induction nodes generalizing seen with
  | nil => exact ⟨List.nodup_nil, by simp⟩
  | cons g rest ih =>
    unfold scanEndpoints at checked
    split at checked
    · next same => cases same
    · cases checked
    · next h tail notStray same =>
      cases same
      cases found : claimEndpoints seen g.redirects.items with
      | error e =>
        rw [found] at checked
        cases checked
      | ok seen' =>
        rw [found] at checked
        obtain ⟨same, distinct'⟩ := claimEndpoints_ok found distinct
        obtain ⟨later, apart⟩ := ih checked distinct'
        change seen' = g.redirects.endpoints.reverse ++ seen at same
        rw [same, List.nodup_append] at distinct'
        obtain ⟨here, -, fresh⟩ := distinct'
        rw [List.flatMap_cons]
        refine ⟨List.nodup_append.mpr ⟨?_, later, ?_⟩, ?_⟩
        · simpa [List.Nodup, List.pairwise_reverse, ne_comm] using here
        · rintro s mine _ other rfl
          refine apart s other ?_
          rw [same]
          exact List.mem_append_left _ (List.mem_reverse.mpr mine)
        · intro s member old
          rcases List.mem_append.mp member with mine | other
          · exact fresh s (List.mem_reverse.mpr mine) s old rfl
          · refine apart s other ?_
            rw [same]
            exact List.mem_append_right _ old

private theorem claimEndpoints_error {seen : List Stream} {items : List (Stream × Labelled Target)}
    {refusal : BuildError} (checked : claimEndpoints seen items = .error refusal) :
    ∃ s, refusal = .repeatedEndpoint s ∧
      2 ≤ (((items.filter (·.2.it.isEndpoint)).map (·.1)) ++ seen).count s := by
  induction items generalizing seen with
  | nil => cases checked
  | cons item rest ih =>
    obtain ⟨s, t⟩ := item
    rw [claimEndpoints] at checked
    split at checked
    · next isEndpoint =>
      have first : ((s, t) :: rest).filter (·.2.it.isEndpoint) = (s, t) :: rest.filter (·.2.it.isEndpoint) :=
        List.filter_cons_of_pos isEndpoint
      rw [first, List.map_cons, List.cons_append]
      split at checked
      · next isOld =>
        cases checked
        refine ⟨s, rfl, ?_⟩
        have before : 0 < seen.count s := List.count_pos_iff.mpr (by simpa using isOld)
        rw [List.count_cons_self, List.count_append]
        omega
      · obtain ⟨s', same, twice⟩ := ih checked
        exact ⟨s', same, List.perm_middle.count_eq s' ▸ twice⟩
    · next noEndpoint =>
      have first : ((s, t) :: rest).filter (·.2.it.isEndpoint) = rest.filter (·.2.it.isEndpoint) :=
        List.filter_cons_of_neg noEndpoint
      rw [first]
      exact ih checked

private theorem scanEndpoints_error {seen : List Stream} {nodes : List Graph} {refusal : BuildError}
    (checked : scanEndpoints seen nodes = .error refusal) (distinct : seen.Nodup) :
    (∃ s, refusal = .repeatedEndpoint s ∧ 2 ≤ (nodes.flatMap (·.redirects.endpoints) ++ seen).count s) ∨
      ∃ held, .stray held ∈ nodes ∧ refusal = .noNode held.it.typeName := by
  induction nodes generalizing seen with
  | nil => cases checked
  | cons g rest ih =>
    unfold scanEndpoints at checked
    split at checked
    · next same => cases same
    · next held tail same =>
      cases same
      cases checked
      exact .inr ⟨held, List.mem_cons_self, rfl⟩
    · next h tail notStray same =>
      cases same
      have split : (List.flatMap (·.redirects.endpoints) (g :: rest) ++ seen).Perm
          (rest.flatMap (·.redirects.endpoints) ++ (g.redirects.endpoints.reverse ++ seen)) := by
        rw [List.flatMap_cons, ← List.append_assoc]
        exact (List.perm_append_comm.trans
          ((List.reverse_perm _).symm.append_left _)).append_right _
      cases found : claimEndpoints seen g.redirects.items with
      | error e =>
        rw [found] at checked
        cases checked
        obtain ⟨s, same, twice⟩ := claimEndpoints_error found
        refine .inl ⟨s, same, Nat.le_trans twice ?_⟩
        rw [List.flatMap_cons, List.count_append, List.count_append, List.count_append]
        exact Nat.add_le_add_right (Nat.le_add_right _ _) _
      | ok seen' =>
        rw [found] at checked
        obtain ⟨same, distinct'⟩ := claimEndpoints_ok found distinct
        change seen' = g.redirects.endpoints.reverse ++ seen at same
        rcases ih checked distinct' with ⟨s, isRefusal, twice⟩ | ⟨held, member, isRefusal⟩
        · exact .inl ⟨s, isRefusal, by rwa [split.count_eq, ← same]⟩
        · exact .inr ⟨held, List.mem_cons_of_mem _ member, isRefusal⟩

/-- A graph is refused for a stream of which two nodes ask for an end, or for a value that is no node. -/
theorem checkEndpoints_error {g : Graph} {refusal : BuildError} (checked : checkEndpoints g = .error refusal) :
    (∃ s, refusal = .repeatedEndpoint s ∧ 2 ≤ g.requests s) ∨
      ∃ held, .stray held ∈ g.nodes ∧ refusal = .noNode held.it.typeName := by
  rcases scanEndpoints_error checked List.nodup_nil with ⟨s, same, twice⟩ | stray
  · rw [List.append_nil, Graph.count_endpoints] at twice
    exact .inl ⟨s, same, twice⟩
  · exact .inr stray

/-- The streams of which some chores make ends for the caller are those of which the nodes ask. -/
theorem map_snd_endpoints (g : Graph) :
    g.endpoints.map (·.2) = g.nodes.flatMap (·.redirects.endpoints) := by
  rw [Graph.endpoints, List.map_filterMap]
  refine (Chore.OfNodes.ofGraph g []).filterMap_eq fun n above => ?_
  have last : (n.ownChore? above).toList.filterMap (fun c => c.endpoint?.map (·.2)) = [] := by
    cases n <;> rfl
  rw [Graph.ownChores, List.filterMap_append, last, List.append_nil, Chore.ofRedirects,
    Redirects.endpoints]
  induction n.redirects.items with
  | nil => rfl
  | cons item rest ih =>
    obtain ⟨s, label, target⟩ := item
    rw [List.map_cons, List.filterMap_cons, List.filter_cons, ih]
    cases target <;> rfl

/-- No stream comes up twice among the ends for the caller in a graph that was checked. -/
theorem nodup_endpoints {g : Graph} (checked : checkEndpoints g = .ok ()) :
    (g.endpoints.map (·.2)).Nodup := by
  rw [map_snd_endpoints]
  exact (scanEndpoints_ok checked List.nodup_nil).1

end Pipework
