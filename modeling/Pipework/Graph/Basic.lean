import Pipework.Value.Basic

/-!
# Process graphs

The parts of a node and the redirects that it carries.
-/

namespace Pipework

namespace Target

/-- The number that stands for the null device. -/
def nullNumber : Int := -3

/-- The null device. There is one target for it. -/
def null : Labelled Target :=
  let name : Label := .constant "null"
  ⟨name, .stream ⟨.part name "stream", .int nullNumber⟩⟩

/-- The end for the caller. There is one target for it. -/
def callerEnd : Labelled Target := ⟨.constant "end", .endpoint⟩

/-- The graph that a target leads to, if it leads to one. -/
def graph? : Target → Option Graph
  | .graph g => some g
  | _ => none

/-- Whether a target leads to a graph. -/
def isGraph : Target → Bool
  | .graph _ => true
  | _ => false

/-- Whether a target is an end for the caller. -/
def isEndpoint : Target → Bool
  | .endpoint => true
  | _ => false

/-- A target as a value. One that stands for a target and is none is the value itself. -/
def toItem : Labelled Target → Item
  | ⟨_, .stray held⟩ => held
  | ⟨label, t⟩ => ⟨label, .target t⟩

end Target

namespace Redirects

/-- The redirect of one stream. -/
def get (r : Redirects) : Stream → Option (Labelled Target)
  | .stdin => r.stdin
  | .stdout => r.stdout
  | .stderr => r.stderr

/-- The redirects with one stream set. -/
def set (r : Redirects) (s : Stream) (t : Labelled Target) : Redirects :=
  match s with
  | .stdin => { r with stdin := some t }
  | .stdout => { r with stdout := some t }
  | .stderr => { r with stderr := some t }

/-- The redirected streams with their targets, in stream order. -/
def items (r : Redirects) : List (Stream × Labelled Target) :=
  Stream.all.filterMap fun s => (r.get s).map (s, ·)

/-- Whether no stream is redirected. -/
def isEmpty (r : Redirects) : Bool := r.items.isEmpty

/-- The graphs that redirects lead to, in stream order. -/
def graphs (r : Redirects) : List Graph := r.items.filterMap (·.2.it.graph?)

end Redirects

namespace Graph

/-- The number of a node. A value that is no node has none of its own; zero stands for it. -/
def number : Graph → Nat
  | .leaf number .. => number
  | .pipe number .. => number
  | .group number .. => number
  | .unknown number _ => number
  | .stray _ => 0

/-- The redirects of a node. -/
def redirects : Graph → Redirects
  | .leaf _ _ r => r
  | .pipe _ _ _ r => r
  | .group _ _ _ r => r
  | .unknown .. => {}
  | .stray _ => {}

/-- The same node, under another number, with other redirects; a node of no known kind has none. -/
def withRedirects? (number : Nat) (r : Redirects) : Graph → Option Graph
  | .leaf _ command _ => some (.leaf number command r)
  | .pipe _ left right _ => some (.pipe number left right r)
  | .group _ label members _ => some (.group number label members r)
  | .unknown .. => none
  | .stray _ => none

/-- The value that stands where a node should. -/
def stray? : Graph → Option Item
  | .stray held => some held
  | _ => none

/-- The command of a leaf. -/
def command? : Graph → Option Command
  | .leaf _ ⟨_, .command c _⟩ _ => some c
  | _ => none

/-- A graph as a value. One that stands for a node and is none is the value itself. -/
def toItem : Graph → Item
  | .stray held => held
  | g => ⟨.own g.number, .graph g⟩

/-- An item in the place of a node. -/
def ofPart (i : Item) : Graph :=
  match i.it with
  | .graph g => g
  | _ => .stray i

end Graph

/-- The whole number that a value counts as. -/
def Value.whole? : Value → Option Int
  | .bool b => some (if b then 1 else 0)
  | .int n => some n
  | .float d => d.toInt?
  | _ => Option.none

end Pipework
