import Mathlib.Algebra.GroupWithZero.Nat
import Pipework.Graph.Build
import Pipework.Wiring

/-!
# Nearest claims and the chores of a walk

Which stream a command gets can be said without starting anything. From the command one goes up
through the graph, and the first node on the way that has a say decides: a node by a redirect of its
own, a pipe by the side from which one comes, a redirect to a graph by the far end of its pipe. Such
a say is a `Claim`. The walk that starts a graph goes down and hands contexts on; claims are found by going
up, and know no contexts.

Starting a graph comes down to a list of chores: to resolve a redirect, to make the pipe of a pipe
node, to start a command. The list can be read off the graph, and each chore knows where in the
graph it belongs. What a chore opens goes to claims. Descriptors are handed out in order, so the
number of the first one determines what every claim of the graph gets.
-/

namespace Pipework

/-! ## Claims -/

/-- The way from a node to a graph below it. -/
inductive Turn where
  | left
  | right
  | member (index : Nat)
  /-- Along the redirect of a stream that leads to a graph. -/
  | attached (s : Stream)
deriving DecidableEq, Repr

/-- Where a node stands in a graph: the turns that lead to it, the last turn first. -/
abbrev Place := List Turn

/-- The nodes above a node, the nearest first, each with the turn taken there. -/
abbrev Lineage := List (Turn × Graph)

/-- Where a node with this lineage stands. -/
def Lineage.place (l : Lineage) : Place := l.map (·.1)

/-- What may decide what a stream of a command is. -/
inductive Claim where
  /-- The redirect of a stream of a node, with what the node itself gets from it. -/
  | near (place : Place) (s : Stream)
  /-- The redirect of a stream of a node, with the other end of the pipe made for it. -/
  | far (place : Place) (s : Stream)
  /-- The write end of a pipe node. -/
  | writing (place : Place)
  /-- The read end of a pipe node. -/
  | reading (place : Place)
deriving DecidableEq, Repr

/-- Where the node of a claim stands. -/
def Claim.place : Claim → Place
  | near place _ => place
  | far place _ => place
  | writing place => place
  | reading place => place

/-- The claim that a node makes by a redirect of its own. -/
def Graph.ownClaim (g : Graph) (place : Place) (s : Stream) : Option Claim :=
  (g.redirects.get s).map fun _ => .near place s

/-- The claim on a stream that comes to a node from above. To a graph that a redirect leads to, the
far end of the pipe comes, and for the other streams what comes to the owner of the redirect: its
own redirects are passed over. Everywhere else the redirects of the parent are asked first. -/
def Lineage.claim : Lineage → Stream → Option Claim
  | [], _ => none
  | (turn, parent) :: above, s =>
    match turn, s with
    | .left, .stdout => some (.writing (place above))
    | .right, .stdin => some (.reading (place above))
    | .attached t, s => if s = Graph.farStream t then some (.far (place above) t) else claim above s
    | _, s => (parent.ownClaim (place above) s).or (claim above s)

/-- The nearest claim on a stream of a node, from the node itself up to the root; `none` stands for
the host's stream. -/
def Graph.nearest (g : Graph) (above : Lineage) (s : Stream) : Option Claim :=
  (g.ownClaim above.place s).or (above.claim s)

section Turns

variable (parent : Graph) (above : Lineage) (s : Stream)

theorem Lineage.claim_left :
    Lineage.claim ((.left, parent) :: above) s
      = if s = .stdout then some (.writing above.place) else parent.nearest above s := by
  cases s <;> rfl

theorem Lineage.claim_right :
    Lineage.claim ((.right, parent) :: above) s
      = if s = .stdin then some (.reading above.place) else parent.nearest above s := by
  cases s <;> rfl

theorem Lineage.claim_member (index : Nat) :
    Lineage.claim ((.member index, parent) :: above) s = parent.nearest above s := by
  cases s <;> rfl

theorem Lineage.claim_attached (t : Stream) :
    Lineage.claim ((.attached t, parent) :: above) s
      = if s = Graph.farStream t then some (.far above.place t) else above.claim s := by
  cases s <;> rfl

end Turns

/-! ## Chores -/

/-- One thing to be done to start a graph. -/
inductive Chore where
  /-- Make what a redirect of a node asks for. -/
  | redirect (place : Place) (s : Stream) (target : Target)
  /-- Make the pipe of a pipe node. -/
  | edge (place : Place)
  /-- Start the command of a leaf. -/
  | start (leaf : Graph) (above : Lineage)
  /-- Give up: there is no such node. -/
  | refuse (e : BuildError)

/-- The chores for the redirects of a node. -/
def Chore.ofRedirects (place : Place) (r : Redirects) : List Chore :=
  r.items.map fun (s, t) => .redirect place s t.it

mutual

/-- The chores of a graph that stands below some nodes, in the order in which they are done. -/
def Graph.chores (above : Lineage) : Graph → List Chore
  | .leaf number command r =>
    Chore.ofRedirects above.place r
      ++ .start (.leaf number command r) above
        :: Graph.choresOfRedirects (.leaf number command r) above r
  | .pipe number left right r =>
    Chore.ofRedirects above.place r
      ++ .edge above.place
        :: (left.chores ((.left, .pipe number left right r) :: above)
          ++ (right.chores ((.right, .pipe number left right r) :: above)
            ++ Graph.choresOfRedirects (.pipe number left right r) above r))
  | .group number label members r =>
    Chore.ofRedirects above.place r
      ++ (Graph.choresOfMembers (.group number label members r) above 0 members
        ++ Graph.choresOfRedirects (.group number label members r) above r)
  | .unknown _ name => [.refuse (.unknownNode name)]
  | .stray held => [.refuse (.noNode held.it.typeName)]

/-- The chores of the members of a group, from one index on. -/
def Graph.choresOfMembers (owner : Graph) (above : Lineage) (index : Nat) : List Graph → List Chore
  | [] => []
  | g :: rest =>
    g.chores ((.member index, owner) :: above) ++ Graph.choresOfMembers owner above (index + 1) rest

/-- The chores of the graphs that the redirects of a node lead to. -/
def Graph.choresOfRedirects (owner : Graph) (above : Lineage) : Redirects → List Chore
  | ⟨stdin, stdout, stderr, _⟩ =>
    Graph.choresOfTarget? ((.attached .stdin, owner) :: above) stdin
      ++ (Graph.choresOfTarget? ((.attached .stdout, owner) :: above) stdout
        ++ Graph.choresOfTarget? ((.attached .stderr, owner) :: above) stderr)

/-- The chores of the graph that a redirect leads to. -/
def Graph.choresOfTarget? (above : Lineage) : Option (Labelled Target) → List Chore
  | some ⟨_, .graph g⟩ => g.chores above
  | _ => []

end

/-- What a chore opens or takes over, with the claims that get it. -/
inductive Making where
  /-- A new pipe and the claims on its two ends. -/
  | pipe (reading writing : Claim)
  /-- A newly opened file. -/
  | file (name : Text) (mode : FileMode) (claim : Claim)
  /-- A descriptor of the caller. -/
  | given (value : Descriptor) (claim : Claim)
deriving DecidableEq, Repr

/-- The descriptor that a caller gives as a redirect, if the value is or has one. -/
def Value.descriptor? : Value → Option Descriptor
  | int n => some (.number n)
  | bool b => some (.truth b)
  | file descriptor => some (.number descriptor)
  | _ => Option.none

/-- What a redirect makes; the near end of a pipe is the one that the redirected node gets. -/
def Target.making? (place : Place) (s : Stream) : Target → Option Making
  | .file ⟨_, .str name⟩ append => some (.file name (Wiring.fileMode s append) (.near place s))
  | .file .. => none
  | .buffer _ | .graph _ | .endpoint =>
    some (if s = .stdin then .pipe (.near place s) (.far place s)
      else .pipe (.far place s) (.near place s))
  | .stream held => held.it.descriptor?.map fun d => .given d (.near place s)
  | .unknown _ | .stray _ => none

namespace Chore

/-- What a chore makes. -/
def making? : Chore → Option Making
  | redirect place s target => target.making? place s
  | edge place => some (.pipe (.reading place) (.writing place))
  | start .. => none
  | refuse _ => none

/-- What some chores make, in order. -/
def makings (chores : List Chore) : List Making := chores.filterMap making?

@[simp] theorem makings_append (a b : List Chore) : makings (a ++ b) = makings a ++ makings b :=
  List.filterMap_append

end Chore

namespace Making

/-- The claims on what is made. -/
def claims : Making → List Claim
  | pipe reading writing => [reading, writing]
  | file _ _ claim => [claim]
  | given _ claim => [claim]

/-- How many descriptors are opened. -/
def size : Making → Nat
  | pipe .. => 2
  | file .. => 1
  | given .. => 0

/-- What the claims get, when the next descriptor is known. -/
def values (next : Nat) : Making → List (Claim × Descriptor)
  | pipe reading writing => [(reading, .number next), (writing, .number (next + 1 : Nat))]
  | file _ _ claim => [(claim, .number next)]
  | given value claim => [(claim, value)]

/-- How many descriptors some makings open. -/
def sizes (makings : List Making) : Nat := (makings.map size).sum

/-- What the claims on some makings get, from the next descriptor on. -/
def assign (next : Nat) : List Making → List (Claim × Descriptor)
  | [] => []
  | m :: rest => m.values next ++ assign (next + m.size) rest

theorem assign_append (next : Nat) (a b : List Making) :
    assign next (a ++ b) = assign next a ++ assign (next + sizes a) b := by
  induction a generalizing next with
  | nil => rfl
  | cons m rest ih => simp [assign, sizes, ih, Nat.add_assoc]

theorem map_fst_assign (next : Nat) (makings : List Making) :
    (assign next makings).map (·.1) = makings.flatMap claims := by
  induction makings generalizing next with
  | nil => rfl
  | cons m rest ih =>
    have same : (m.values next).map (·.1) = m.claims := by cases m <;> rfl
    rw [assign, List.map_append, same, ih, List.flatMap_cons]

end Making

/-- What every claim of a graph gets when the graph is started with this next descriptor. What is no
claim of the graph gets nothing; zero stands for that. -/
def Graph.values (g : Graph) (next : Nat) (claim : Claim) : Descriptor :=
  ((Making.assign next (Chore.makings (g.chores []))).lookup claim).getD (.number 0)

end Pipework
