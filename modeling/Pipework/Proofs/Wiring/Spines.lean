import Pipework.Proofs.Graph.Joined
import Pipework.Proofs.Wiring.Flow
import Pipework.Proofs.Wiring.Progress

/-!
# Which command a stream of a graph belongs to

The stdin of a graph is that of its first command, down the left sides of pipes, and its stdout that of
its last command, down the right sides. If no redirect on the way down is in the way, what decides the
stream of the graph decides that of the command (`nearest_endAt`), and no other command below the graph
has its stdin from there (`eq_endAt`). In a graph as the builders make it, nothing is in the way. So
every pipe and every redirect of stdin feeds one command, and every redirect of stdout is written to.
-/

namespace Pipework

namespace Chore

variable {g h leaf : Graph} {above l : Lineage} {t : Turn} {s : Stream} {c : Claim}

/-- A leaf that stands below a turn is started by what hangs there. -/
theorem start_of_child (child : g.Child t h) (member : .start leaf l ∈ g.chores above)
    (below : (t :: above.place) <:+ l.place) : .start leaf l ∈ h.chores ((t, g) :: above) := by
  rcases start_cases member with ⟨-, rfl, -⟩ | ⟨u, k, other, later⟩
  · have long := below.length_le
    rw [List.length_cons] at long
    omega
  · have same : t = u := turn_unique below (suffix_of_start later)
    subst same
    rw [child.unique other]
    exact later

/-- A leaf that stands below a node is started by it. -/
theorem start_of_stands {root : Graph} (stands : root.Stands g above)
    (member : .start leaf l ∈ root.chores []) (below : above.place <:+ l.place) :
    .start leaf l ∈ g.chores above := by
  induction stands with
  | root => exact member
  | left parent ih => exact start_of_child .left (ih ((List.suffix_cons _ _).trans below)) below
  | right parent ih => exact start_of_child .right (ih ((List.suffix_cons _ _).trans below)) below
  | member parent isMember ih =>
    exact start_of_child (.member isMember) (ih ((List.suffix_cons _ _).trans below)) below
  | attached parent leads ih =>
    exact start_of_child (.attached leads) (ih ((List.suffix_cons _ _).trans below)) below

end Chore

/-! ## Where a claim comes from -/

section Nearest

variable {g h leaf : Graph} {above l : Lineage} {t : Turn} {s : Stream} {c : Claim}

theorem Graph.length_of_nearest (nearest : g.nearest above s = some c) :
    c.place.length ≤ above.place.length := by
  rcases g.reaches_of_nearest nearest with rfl | reaches
  · exact Nat.le_refl _
  · exact Nat.le_of_lt reaches.length_lt

/-- Below a node, a stream is decided there or by what comes to the node from above. -/
theorem Graph.claim_of_start (member : .start leaf l ∈ g.chores above)
    (nearest : leaf.nearest l s = some c) : above.place <:+ c.place ∨ above.claim s = some c := by
  have node {g : Graph} {above : Lineage} (nearest : g.nearest above s = some c) :
      above.place <:+ c.place ∨ above.claim s = some c := by
    rw [Graph.nearest, Option.or_eq_some_iff] at nearest
    rcases nearest with mine | ⟨-, claimed⟩
    · obtain ⟨_, _, rfl⟩ := Option.map_eq_some_iff.mp mine
      exact .inl List.suffix_rfl
    · exact .inr claimed
  induction g using Graph.child_induction generalizing above with
  | step g ih =>
    rcases Chore.start_cases member with ⟨rfl, rfl, -⟩ | ⟨t, h, child, later⟩
    · exact node nearest
    rcases ih t h child later with inside | claimed
    · exact .inl ((List.suffix_cons t above.place).trans inside)
    · cases child with
      | left =>
        rw [Lineage.claim_left] at claimed
        split at claimed
        · cases claimed
          exact .inl List.suffix_rfl
        · exact node claimed
      | right =>
        rw [Lineage.claim_right] at claimed
        split at claimed
        · cases claimed
          exact .inl List.suffix_rfl
        · exact node claimed
      | member isMember =>
        rw [Lineage.claim_member] at claimed
        exact node claimed
      | attached leads =>
        rw [Lineage.claim_attached] at claimed
        split at claimed
        · cases claimed
          exact .inl List.suffix_rfl
        · exact .inr claimed

/-- What decides a stream outside a turn, or at the turn's node, comes to what hangs at the turn. -/
theorem Graph.claim_of_child (later : .start leaf l ∈ h.chores ((t, g) :: above))
    (nearest : leaf.nearest l s = some c) (outside : c.place.length ≤ above.place.length) :
    Lineage.claim ((t, g) :: above) s = some c := by
  rcases h.claim_of_start later nearest with inside | claimed
  · have long : (t :: above.place).length ≤ c.place.length := inside.length_le
    rw [List.length_cons] at long
    omega
  · exact claimed

end Nearest

/-! ## The ends of a graph -/

namespace Graph

/-- The command that the stdin or the stdout of a graph belongs to, with the nodes above it. -/
def endAt (s : Stream) (above : Lineage) : Graph → Graph × Lineage
  | .pipe number left right r =>
    match s with
    | .stdin => left.endAt .stdin ((.left, .pipe number left right r) :: above)
    | .stdout => right.endAt .stdout ((.right, .pipe number left right r) :: above)
    | .stderr => (.pipe number left right r, above)
  | g => (g, above)

variable {g leaf : Graph} {above l : Lineage} {s : Stream} {c : Claim}

theorem within_of_boundary (free : g.boundary s = none) : g.within s = none := by
  rw [boundary_eq, Option.or_eq_none_iff] at free
  exact free.2

/-- A graph that is free at a stream has it from above. -/
theorem nearest_of_boundary (free : g.boundary s = none) : g.nearest above s = above.claim s := by
  rw [boundary_eq, Option.or_eq_none_iff] at free
  rw [nearest, ownClaim, free.1]
  rfl

/-- A graph that is redirected itself has what its redirect says. -/
theorem nearest_of_redirect (redirected : (g.redirects.get s).isSome) :
    g.nearest above s = some (.near above.place s) := by
  obtain ⟨t, found⟩ := Option.isSome_iff_exists.mp redirected
  rw [nearest, ownClaim, found]
  rfl

section Sides

variable {number : Nat} {left right : Graph} {r : Redirects}

theorem nearest_left (free : left.boundary .stdin = none) (above : Lineage) :
    left.nearest ((.left, .pipe number left right r) :: above) .stdin =
      (Graph.pipe number left right r).nearest above .stdin := by
  rw [nearest_of_boundary free, Lineage.claim_left]
  rfl

theorem nearest_right (free : right.boundary .stdout = none) (above : Lineage) :
    right.nearest ((.right, .pipe number left right r) :: above) .stdout =
      (Graph.pipe number left right r).nearest above .stdout := by
  rw [nearest_of_boundary free, Lineage.claim_right]
  rfl

end Sides

/-- The end of a graph is started with the graph. -/
theorem start_endAt (joined : g.Joined) (s : Stream) (standard : s ≠ .stderr) (above : Lineage) :
    .start (g.endAt s above).1 (g.endAt s above).2 ∈ g.chores above := by
  induction joined generalizing above with
  | leaf attached connected =>
    rw [Graph.chores]
    exact List.mem_append_right _ List.mem_cons_self
  | pipe isLeft isRight _ _ own attached connected inLeft inRight _ =>
    cases s with
    | stdin => exact Chore.mem_chores_of_child .left (inLeft _)
    | stdout => exact Chore.mem_chores_of_child .right (inRight _)
    | stderr => exact absurd rfl standard

/-- Where nothing inside a graph is in the way, what decides a stream of the graph decides it for the
end of the graph. -/
theorem nearest_endAt (joined : g.Joined) (s : Stream) (standard : s ≠ .stderr)
    (free : g.within s = none) (above : Lineage) :
    (g.endAt s above).1.nearest (g.endAt s above).2 s = g.nearest above s := by
  induction joined generalizing above with
  | leaf attached connected => rfl
  | pipe isLeft isRight _ _ own attached connected inLeft inRight _ =>
    cases s with
    | stdin => exact (inLeft (within_of_boundary free) _).trans (nearest_left free above)
    | stdout => exact (inRight (within_of_boundary free) _).trans (nearest_right free above)
    | stderr => exact absurd rfl standard

/-- Where nothing inside a graph is in the way, only the first command of the graph has its stdin from
where the graph has it. -/
theorem eq_endAt (joined : g.Joined) (free : g.within .stdin = none)
    (comes : g.nearest above .stdin = some c) (member : .start leaf l ∈ g.chores above)
    (nearest : leaf.nearest l .stdin = some c) : (leaf, l) = g.endAt .stdin above := by
  have outside := length_of_nearest comes
  -- What hangs at a redirect has its stdin from the far end, or from above the node.
  have notAttached {g h : Graph} {above : Lineage} {t : Stream} (comes : g.nearest above .stdin = some c)
      (leads : g.redirects.attached? t = some h) :
      Lineage.claim ((.attached t, g) :: above) .stdin ≠ some c := by
    intro claimed
    rw [Lineage.claim_attached] at claimed
    split at claimed
    · cases claimed
      rcases g.reaches_of_nearest comes with same | reaches
      · cases same
      · exact absurd reaches.length_lt (Nat.lt_irrefl _)
    · next near =>
      have isStdin : t = .stdin := by cases t <;> first | rfl | exact absurd rfl near
      subst isStdin
      obtain ⟨u, redirected, -⟩ := Option.bind_eq_some_iff.mp leads
      rw [Graph.nearest, ownClaim, redirected] at comes
      cases comes
      exact absurd (Lineage.reaches_of_claim claimed).length_lt (Nat.lt_irrefl _)
  induction joined generalizing above with
  | leaf attached connected =>
    rcases Chore.start_cases member with ⟨rfl, rfl, -⟩ | ⟨t, h, child, later⟩
    · rfl
    · cases child with
      | attached leads =>
        exact absurd (claim_of_child later nearest outside) (notAttached comes leads)
  | pipe isLeft isRight _ _ own attached connected inLeft _ _ =>
    rcases Chore.start_cases member with ⟨rfl, rfl, isLeaf⟩ | ⟨t, h, child, later⟩
    · cases isLeaf
    cases child with
    | left =>
      have comesLeft := (nearest_left free above).trans comes
      exact inLeft (within_of_boundary free) comesLeft later (length_of_nearest comesLeft)
    | right =>
      have claimed := claim_of_child later nearest outside
      cases claimed
      rcases reaches_of_nearest comes with same | reaches
      · cases same
      · exact absurd reaches.length_lt (Nat.lt_irrefl _)
    | attached leads =>
      exact absurd (claim_of_child later nearest outside) (notAttached comes leads)

/-! ## Nothing is shadowed -/

/-- The claims on the read end and on the write end of a pipe between two parts of a graph: that of a
pipe node, or that of a redirect of stdin or of stdout that leads to a graph. -/
inductive Connects (root : Graph) : Claim → Claim → Prop
  | edge {number : Nat} {left right : Graph} {r : Redirects} {above : Lineage}
      (stands : root.Stands (.pipe number left right r) above) :
      Connects root (.reading above.place) (.writing above.place)
  | feeding {g h : Graph} {above : Lineage} (stands : root.Stands g above)
      (leads : g.redirects.attached? .stdin = some h) :
      Connects root (.near above.place .stdin) (.far above.place .stdin)
  | draining {g h : Graph} {above : Lineage} (stands : root.Stands g above)
      (leads : g.redirects.attached? .stdout = some h) :
      Connects root (.far above.place .stdout) (.near above.place .stdout)

/-- The pipe between two parts of a graph is made with the graph. -/
theorem Connects.made {root : Graph} {reading writing : Claim}
    (connects : root.Connects reading writing) :
    .pipe reading writing ∈ Chore.makings (root.chores []) := by
  have redirect {g h : Graph} {above : Lineage} {s : Stream} (stands : root.Stands g above)
      (leads : g.redirects.attached? s = some h) :
      .redirect above.place s (.graph h) ∈ root.chores [] := by
    obtain ⟨⟨label, target⟩, found, isGraph⟩ := Option.bind_eq_some_iff.mp leads
    have same : target = .graph h := by cases target <;> cases isGraph; rfl
    subst same
    exact Chore.mem_chores_of_stands stands _
      (Chore.ofRedirects_subset _ (Chore.mem_ofRedirects found))
  cases connects with
  | @edge number left right r above stands =>
    have edge : .edge above.place ∈ (Graph.pipe number left right r).chores above := by
      rw [Graph.chores]
      simp
    exact List.mem_filterMap.mpr ⟨_, Chore.mem_chores_of_stands stands _ edge, rfl⟩
  | feeding stands leads => exact List.mem_filterMap.mpr ⟨_, redirect stands leads, rfl⟩
  | draining stands leads => exact List.mem_filterMap.mpr ⟨_, redirect stands leads, rfl⟩

/-- A graph in which no pipe is left dangling, and no redirect of stdin or of stdout is shadowed. -/
structure Unshadowed (root : Graph) : Prop where
  /-- The read end of every pipe is the stdin of exactly one leaf, and the write end is the stdout of at
  least one. -/
  pipes : ∀ reading writing, root.Connects reading writing →
    (∃ o, root.takers .stdin reading = [o]) ∧ root.takers .stdout writing ≠ []
  /-- What a node's stdin is redirected to is the stdin of exactly one leaf. -/
  inputs : ∀ g above, root.Stands g above → (g.redirects.get .stdin).isSome →
    ∃ o, root.takers .stdin (.near above.place .stdin) = [o]
  /-- What a node's stdout is redirected to is the stdout of at least one leaf. -/
  outputs : ∀ g above, root.Stands g above → (g.redirects.get .stdout).isSome →
    root.takers .stdout (.near above.place .stdout) ≠ []

section Joined

variable {root : Graph} (joined : root.Joined)
include joined

/-- Every graph that stands in a joined graph is joined. -/
theorem Joined.stands (stands : root.Stands g above) : g.Joined := by
  induction stands with
  | root => exact joined
  | left parent ih => cases ih; assumption
  | right parent ih => cases ih; assumption
  | member parent isMember ih => cases ih
  | attached parent leads ih => exact ih.attached_joined leads

/-- The end of a graph that stands in a joined graph takes what the graph has. -/
private theorem endAt_mem_takers (stands : root.Stands g above) (s : Stream) (standard : s ≠ .stderr)
    (free : g.within s = none) (comes : g.nearest above s = some c) :
    g.endAt s above ∈ root.takers s c := by
  have here := joined.stands stands
  have start := Chore.mem_chores_of_stands stands _ (start_endAt here s standard above)
  refine List.mem_filter.mpr ⟨List.mem_filterMap.mpr ⟨_, start, rfl⟩, decide_eq_true ?_⟩
  exact (nearest_endAt here s standard free above).trans comes

/-- Nobody else takes it for stdin, if it is only for what is below the graph. -/
private theorem takers_stdin (stands : root.Stands g above) (free : g.within .stdin = none)
    (comes : g.nearest above .stdin = some c)
    (below : ∀ (leaf : Graph) l, leaf.nearest l .stdin = some c → above.place <:+ l.place) :
    ∃ o, root.takers .stdin c = [o] := by
  have mine := endAt_mem_takers joined stands .stdin (by decide) free comes
  have only : ∀ o ∈ root.takers .stdin c, o = g.endAt .stdin above := by
    rintro ⟨leaf, l⟩ member
    obtain ⟨occurs, takes⟩ := List.mem_filter.mp member
    have nearest := of_decide_eq_true takes
    obtain ⟨chore, known, isLeaf⟩ := List.mem_filterMap.mp occurs
    have start : chore = .start leaf l := by
      cases chore <;> cases isLeaf
      rfl
    exact eq_endAt (joined.stands stands) free comes
      (Chore.start_of_stands stands (start ▸ known) (below leaf l nearest)) nearest
  have distinct : (root.takers .stdin c).Nodup := root.nodup_occurrences.filter _
  exact ⟨_, List.perm_singleton.mp ((List.perm_ext_iff_of_nodup distinct (List.pairwise_singleton _ _)).mpr
    fun o => ⟨fun member => List.mem_singleton.mpr (only o member),
      fun same => List.mem_singleton.mp same ▸ mine⟩)⟩

private theorem takers_redirected_stdin (stands : root.Stands g above)
    (redirected : (g.redirects.get .stdin).isSome) :
    ∃ o, root.takers .stdin (.near above.place .stdin) = [o] := by
  have free := (joined.stands stands).within_of_redirect redirected
  refine takers_stdin joined stands free (nearest_of_redirect redirected) fun leaf l nearest => ?_
  rcases reaches_of_nearest nearest with same | ⟨turn, -, suffix⟩
  · exact (Claim.near.inj same).1 ▸ List.suffix_rfl
  · exact (List.suffix_cons turn above.place).trans suffix

private theorem takers_redirected_stdout (stands : root.Stands g above)
    (redirected : (g.redirects.get .stdout).isSome) :
    root.takers .stdout (.near above.place .stdout) ≠ [] := by
  have free := (joined.stands stands).within_of_redirect redirected
  exact List.ne_nil_of_mem (endAt_mem_takers joined stands .stdout (by decide) free
    (nearest_of_redirect redirected))

/-- In a joined graph no pipe is left dangling, and no redirect of stdin or of stdout is shadowed. -/
theorem Joined.unshadowed : root.Unshadowed := by
  refine ⟨fun reading writing connects => ?_,
    fun g above stands redirected => takers_redirected_stdin joined stands redirected,
    fun g above stands redirected => takers_redirected_stdout joined stands redirected⟩
  cases connects with
  | @edge number left right r above stands =>
    cases joined.stands stands with
    | pipe isLeft isRight output input ownFree attached connected =>
    constructor
    · refine takers_stdin joined (.right stands) (within_of_boundary input)
        (nearest_of_boundary input) fun leaf l nearest => ?_
      rcases reaches_of_nearest nearest with same | ⟨turn, leads, suffix⟩
      · cases same
      · cases leads
        exact suffix
    · exact List.ne_nil_of_mem (endAt_mem_takers joined (.left stands) .stdout (by decide)
        (within_of_boundary output) (nearest_of_boundary output))
  | @feeding g h above stands leads =>
    have free := (joined.stands stands).attached_free leads
    obtain ⟨t, redirected, -⟩ := Option.bind_eq_some_iff.mp leads
    refine ⟨takers_redirected_stdin joined stands (Option.isSome_iff_exists.mpr ⟨t, redirected⟩), ?_⟩
    exact List.ne_nil_of_mem (endAt_mem_takers joined (.attached stands leads) .stdout (by decide)
      (within_of_boundary free) (nearest_of_boundary free))
  | @draining g h above stands leads =>
    have free := (joined.stands stands).attached_free leads
    obtain ⟨t, redirected, -⟩ := Option.bind_eq_some_iff.mp leads
    refine ⟨?_, takers_redirected_stdout joined stands (Option.isSome_iff_exists.mpr ⟨t, redirected⟩)⟩
    refine takers_stdin joined (.attached stands leads) (within_of_boundary free)
      (nearest_of_boundary free) fun leaf l nearest => ?_
    rcases reaches_of_nearest nearest with same | ⟨turn, isTurn, suffix⟩
    · cases same
    · cases isTurn
      exact suffix

end Joined

end Graph

end Pipework
