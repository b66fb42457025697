import Mathlib.Data.List.Lex
import Mathlib.Logic.Relation
import Pipework.Proofs.Wiring.Distinct

/-!
# Data flow forward

A claim that decides a stream of a command belongs to a node above it, and what it says of its kind
tells by which turn the command goes on below that node (`Claim.Leads`).

The way from the root to a command, read as numbers that are compared in order, is its depth of flow. At
each node, the graph that feeds its stdin comes first, then the node itself with the left side of a pipe
before the right one, and last the graphs that its outputs lead to. Of the two claims on a pipe the write
end always has the smaller number. So along every pipe the depth grows.
-/

namespace Pipework

/-! ## Below the node of a claim -/

/-- By which turn a stream that a claim decides goes on below the node of the claim. -/
def Claim.Leads : Claim → Turn → Prop
  | .near _ _, turn => ∀ s, turn ≠ .attached s
  | .far _ s, turn => turn = .attached s
  | .writing _, turn => turn = .left
  | .reading _, turn => turn = .right

/-- The way to a place leads through the node of a claim, and on by a turn that the claim leads to. -/
def Claim.Reaches (c : Claim) (place : Place) : Prop :=
  ∃ turn, c.Leads turn ∧ (turn :: c.place) <:+ place

namespace Claim.Reaches

variable {c : Claim} {place : Place}

theorem here {turn : Turn} (leads : c.Leads turn) : c.Reaches (turn :: c.place) :=
  ⟨turn, leads, List.suffix_rfl⟩

theorem cons (reaches : c.Reaches place) (turn : Turn) : c.Reaches (turn :: place) := by
  obtain ⟨first, leads, suffix⟩ := reaches
  exact ⟨first, leads, suffix.trans (List.suffix_cons turn place)⟩

theorem length_lt (reaches : c.Reaches place) : c.place.length < place.length := by
  obtain ⟨turn, -, suffix⟩ := reaches
  have long := suffix.length_le
  rw [List.length_cons] at long
  omega

end Claim.Reaches

/-- The redirects of a node are for its parts, and for those alone. -/
private theorem reaches_node {g : Graph} {above : Lineage} {s : Stream} {c : Claim} {turn : Turn}
    (inside : ∀ s, turn ≠ .attached s)
    (outer : ∀ c, above.claim s = some c → c.Reaches above.place)
    (nearest : g.nearest above s = some c) : c.Reaches (turn :: above.place) := by
  rw [Graph.nearest, Option.or_eq_some_iff] at nearest
  rcases nearest with mine | ⟨-, claimed⟩
  · obtain ⟨_, _, rfl⟩ := Option.map_eq_some_iff.mp mine
    exact .here inside
  · exact (outer c claimed).cons turn

/-- What comes to a node from above was meant for it. -/
theorem Lineage.reaches_of_claim {above : Lineage} {s : Stream} {c : Claim}
    (claimed : above.claim s = some c) : c.Reaches above.place := by
  induction above generalizing c with
  | nil => cases claimed
  | cons first above outer =>
    obtain ⟨turn, parent⟩ := first
    change c.Reaches (turn :: Lineage.place above)
    cases turn with
    | left =>
      rw [claim_left] at claimed
      split at claimed
      · cases claimed
        exact .here rfl
      · exact reaches_node nofun (fun c => outer) claimed
    | right =>
      rw [claim_right] at claimed
      split at claimed
      · cases claimed
        exact .here rfl
      · exact reaches_node nofun (fun c => outer) claimed
    | member index =>
      rw [claim_member] at claimed
      exact reaches_node nofun (fun c => outer) claimed
    | attached t =>
      rw [claim_attached] at claimed
      split at claimed
      · cases claimed
        exact .here rfl
      · exact (outer claimed).cons _

/-- A stream of a node is decided by the node itself, or by what comes from above. -/
theorem Graph.reaches_of_nearest {g : Graph} {above : Lineage} {s : Stream} {c : Claim}
    (nearest : g.nearest above s = some c) : c = .near above.place s ∨ c.Reaches above.place := by
  rw [Graph.nearest, Option.or_eq_some_iff] at nearest
  rcases nearest with mine | ⟨-, claimed⟩
  · obtain ⟨_, _, rfl⟩ := Option.map_eq_some_iff.mp mine
    exact .inl rfl
  · exact .inr (Lineage.reaches_of_claim claimed)

/-! ## The depth of flow -/

/-- How far on the data are after a turn. -/
def Turn.rank : Turn → Nat
  | .attached .stdin => 0
  | .left | .member _ => 1
  | .right => 2
  | .attached .stdout | .attached .stderr => 3

/-- The ranks of the turns that lead to a place, the first turn first. -/
def Place.ranks (place : Place) : List Nat := (place.map Turn.rank).reverse

/-- The depth of flow of a command at a place. A node itself comes after what is attached to its stdin
and before what is attached to its outputs. -/
def Place.depth (place : Place) : List Nat := Place.ranks place ++ [1]

/-- With which ranks the depth goes on below the node of a claim. -/
def Claim.IsRank : Claim → Nat → Prop
  | .near _ _, rank => rank = 1 ∨ rank = 2
  | .far _ s, rank => rank = (Turn.attached s).rank
  | .writing _, rank => rank = Turn.left.rank
  | .reading _, rank => rank = Turn.right.rank

theorem Claim.Leads.isRank {c : Claim} {turn : Turn} (leads : c.Leads turn) : c.IsRank turn.rank := by
  cases c with
  | near place s =>
    cases turn with
    | left => exact .inl rfl
    | right => exact .inr rfl
    | member index => exact .inl rfl
    | attached t => exact absurd rfl (leads t)
  | far place s => exact congrArg Turn.rank leads
  | writing place => exact congrArg Turn.rank leads
  | reading place => exact congrArg Turn.rank leads

/-- The depth of a command goes through the node of every claim that decides one of its streams. -/
theorem Graph.depth_of_nearest {leaf : Graph} {above : Lineage} {s : Stream} {c : Claim}
    (nearest : leaf.nearest above s = some c) :
    ∃ rank rest, c.IsRank rank ∧ Place.depth above.place = Place.ranks c.place ++ rank :: rest := by
  rcases reaches_of_nearest nearest with rfl | ⟨turn, leads, before, same⟩
  · exact ⟨1, [], .inl rfl, rfl⟩
  · refine ⟨turn.rank, Place.ranks before ++ [1], leads.isRank, ?_⟩
    rw [Place.depth, ← same]
    simp [Place.ranks]

/-- Both ends of a pipe belong to one node, and the write end has the smaller rank. -/
theorem Chore.rank_lt_of_pipe {chores : List Chore} {reading writing : Claim}
    (made : .pipe reading writing ∈ makings chores) :
    writing.place = reading.place ∧
      ∀ before after, writing.IsRank before → reading.IsRank after → before < after := by
  obtain ⟨chore, -, makes⟩ := List.mem_filterMap.mp made
  have ends {place : Place} {s : Stream}
      (same : (if s = .stdin then Making.pipe (.near place s) (.far place s)
        else .pipe (.far place s) (.near place s)) = .pipe reading writing) :
      writing.place = reading.place ∧
        ∀ before after, writing.IsRank before → reading.IsRank after → before < after := by
    cases s <;> cases same <;> refine ⟨rfl, fun before after first second => ?_⟩ <;>
      simp only [Claim.IsRank, Turn.rank] at first second <;> omega
  cases chore with
  | redirect place s target =>
    cases target with
    | buffer held => exact ends (Option.some.inj makes)
    | graph g => exact ends (Option.some.inj makes)
    | endpoint => exact ends (Option.some.inj makes)
    | file path append =>
      obtain ⟨label, value⟩ := path
      cases value <;> cases makes
    | stream held =>
      obtain ⟨d, -, same⟩ := Option.map_eq_some_iff.mp makes
      cases same
    | unknown name => cases makes
    | stray held => cases makes
  | edge place =>
    cases makes
    refine ⟨rfl, fun before after first second => ?_⟩
    simp only [Claim.IsRank, Turn.rank] at first second
    omega
  | start leaf above => cases makes
  | refuse e => cases makes

/-- Along a pipe the depth of flow grows. -/
theorem Graph.depth_lt_of_pipe {chores : List Chore} {reading writing : Claim}
    (made : .pipe reading writing ∈ Chore.makings chores) {source sink : Graph}
    {a b : Lineage} {s t : Stream} (writes : source.nearest a s = some writing)
    (reads : sink.nearest b t = some reading) : Place.depth a.place < Place.depth b.place := by
  obtain ⟨samePlace, grows⟩ := Chore.rank_lt_of_pipe made
  obtain ⟨before, rest, isBefore, depthA⟩ := depth_of_nearest writes
  obtain ⟨after, rest', isAfter, depthB⟩ := depth_of_nearest reads
  rw [depthA, depthB, samePlace]
  exact List.append_left_lt (List.cons_lt_cons_iff.mpr (.inl (grows _ _ isBefore isAfter)))

end Pipework
