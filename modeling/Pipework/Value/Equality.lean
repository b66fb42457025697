import Pipework.Value.Text

/-!
# Identity and equality

Two items are the same if they are one object. What exists only once is told by its value: truth values,
small numbers, texts and contents of at most one element, but for texts that were written for a number.

Equality looks at values. Numbers and truth values are equal by what they count, contents by their
bytes, lists element by element, sets and mappings whatever their order, and graphs and targets by their
shape, whatever their numbers. An element that is the same object on both sides counts as equal without a
look. An object with a state of its own is equal to nothing but itself; so is a file object, a path, a
buffer, a node or target of no known kind, and a value that is nothing but a text.
-/

namespace Pipework

namespace Value

/-- Whether equal values of this kind are always one object. -/
def isSingle : Value → Bool
  | none | bool _ => true
  | int n => -5 ≤ n && n ≤ 256
  | str [] => true
  | str [.char c] => c.toNat < 256
  | bytes b => b.length ≤ 1
  | tuple [] => true
  | _ => false

/-- Whether two values of a kind that exists only once are equal. -/
def isSameSingle : Value → Value → Bool
  | none, none => true
  | bool a, bool b => a == b
  | int a, int b => a == b
  | str a, str b => a == b
  | bytes a, bytes b => a == b
  | tuple [], tuple [] => true
  | _, _ => false

end Value

/-- Whether two items are one object. -/
def Labelled.isSame (a b : Item) : Bool :=
  match a.it, b.it with
  | .graph g, .graph h => g.number == h.number
  | .object r, .object s => r.id == s.id
  | v, w =>
    if v.isSingle && w.isSingle && !a.label.isApart && !b.label.isApart then v.isSameSingle w
    else a.label == b.label

namespace Value

/-- Whether two ranges have the same elements. -/
def alikeRanges (start stop step start' stop' step' : Int) : Bool :=
  let n := rangeLength start stop step
  n == rangeLength start' stop' step' && (n == 0 || (start == start' && (n == 1 || step == step')))

/-- Whether two values that hold no other values are equal. -/
def alikeAlone (m : Memory) (a b : Value) : Bool :=
  match a, b with
  | none, none => true
  | float d, float e => d.equals e
  | str t, str u => t == u
  | range i j k, range i' j' k' => alikeRanges i j k i' j' k'
  | command c _, command c' _ => c == c'
  | object r, object s =>
    r.id == s.id || (r.kind = .byteArray && s.kind = .byteArray && m.bytesOf r == m.bytesOf s)
  | a, b =>
    match a.whole?, b.whole? with
    | some i, some j => i == j
    | _, _ =>
      match a.content? m, b.content? m with
      | some x, some y => x == y
      | _, _ => false

end Value

mutual

/-- Whether two values are equal. -/
def Value.alike (m : Memory) : Value → Value → Bool
  | .list x, .list y => Value.alikeAll m x y
  | .tuple x, .tuple y => Value.alikeAll m x y
  | .set x, .set y => x.length == y.length && Value.areAmong m x y
  | .dict x, .dict y => x.length == y.length && Value.areEntriesOf m x y
  | .graph g, .graph h => Graph.alike m g h
  | .target t, .target u => Target.alike m t u
  | .redirects r, .redirects s => Redirects.alike m r s
  | a, b => a.alikeAlone m b

/-- Whether two lists have the same or equal items at every place. -/
def Value.alikeAll (m : Memory) : List Item → List Item → Bool
  | [], [] => true
  | ⟨l, a⟩ :: x, b :: y =>
    (Labelled.isSame ⟨l, a⟩ b || Value.alike m a b.it) && Value.alikeAll m x y
  | _, _ => false

/-- Whether every item of a list is the same as or equal to one of another. -/
def Value.areAmong (m : Memory) : List Item → List Item → Bool
  | [], _ => true
  | ⟨l, a⟩ :: x, y =>
    y.any (fun b => Labelled.isSame ⟨l, a⟩ b || Value.alike m a b.it) && Value.areAmong m x y

/-- Whether every entry of a mapping is in another. -/
def Value.areEntriesOf (m : Memory) : List (Text × Item) → List (Text × Item) → Bool
  | [], _ => true
  | (k, ⟨l, a⟩) :: x, y =>
    y.any (fun e => k == e.1 && (Labelled.isSame ⟨l, a⟩ e.2 || Value.alike m a e.2.it))
      && Value.areEntriesOf m x y

/-- Whether two graphs have the same shape, commands and redirects. -/
def Graph.alike (m : Memory) : Graph → Graph → Bool
  | .leaf _ ⟨l, c⟩ r, .leaf _ c' r' =>
    (Labelled.isSame ⟨l, c⟩ c' || Value.alike m c c'.it) && Redirects.alike m r r'
  | .pipe _ u d r, .pipe _ u' d' r' => Graph.alike m u u' && Graph.alike m d d' && Redirects.alike m r r'
  | .group _ _ ms r, .group _ _ ms' r' => Graph.alikeAll m ms ms' && Redirects.alike m r r'
  | .unknown n _, .unknown n' _ => n == n'
  | .stray ⟨l, a⟩, .stray b => Labelled.isSame ⟨l, a⟩ b || Value.alike m a b.it
  | _, _ => false

/-- Whether two lists of graphs are alike member by member. -/
def Graph.alikeAll (m : Memory) : List Graph → List Graph → Bool
  | [], [] => true
  | g :: gs, h :: hs => Graph.alike m g h && Graph.alikeAll m gs hs
  | _, _ => false

/-- Whether two nodes' redirects are alike stream by stream. -/
def Redirects.alike (m : Memory) : Redirects → Redirects → Bool
  | ⟨i, o, e, _⟩, ⟨i', o', e', _⟩ =>
    Target.alike? m i i' && Target.alike? m o o' && Target.alike? m e e'

/-- Whether two redirects are the same or alike. -/
def Target.alike? (m : Memory) : Option (Labelled Target) → Option (Labelled Target) → Bool
  | none, none => true
  | some ⟨l, t⟩, some u => l == u.label || Target.alike m t u.it
  | _, _ => false

/-- Whether two targets are equal. -/
def Target.alike (m : Memory) : Target → Target → Bool
  | .graph g, .graph h => Graph.alike m g h
  | .file ⟨l, p⟩ a, .file p' a' => (Labelled.isSame ⟨l, p⟩ p' || Value.alike m p p'.it) && a == a'
  | .stream ⟨l, a⟩, .stream b => Labelled.isSame ⟨l, a⟩ b || Value.alike m a b.it
  | .endpoint, .endpoint => true
  | .stray ⟨l, a⟩, .stray b => Labelled.isSame ⟨l, a⟩ b || Value.alike m a b.it
  | _, _ => false

end

/-- Whether two items are equal. A number is compared by its value even to itself. -/
def Labelled.equals (m : Memory) (a b : Item) : Bool :=
  match a.it with
  | .float _ => a.it.alike m b.it
  | _ => a.isSame b || a.it.alike m b.it

/-! ## Elements of sets -/

mutual

/-- Whether a value may be an element of a set: nothing that can change may, nor what holds it. -/
def Value.isHashable : Value → Bool
  | .list _ | .set _ | .dict _ => false
  | .tuple items => Value.areHashable items
  | .object ref => ref.kind != .byteArray
  | .graph g => Graph.isHashable g
  | .target t => Target.isHashable t
  | .redirects r => Redirects.isHashable r
  | _ => true

/-- Whether every item of a list may be an element of a set. -/
def Value.areHashable : List Item → Bool
  | [] => true
  | ⟨_, v⟩ :: rest => Value.isHashable v && Value.areHashable rest

/-- Whether a graph may be an element of a set. -/
def Graph.isHashable : Graph → Bool
  | .leaf _ ⟨_, c⟩ r => Value.isHashable c && Redirects.isHashable r
  | .pipe _ u d r => Graph.isHashable u && Graph.isHashable d && Redirects.isHashable r
  | .group _ _ ms r => Graph.areHashable ms && Redirects.isHashable r
  | .unknown .. => true
  | .stray ⟨_, v⟩ => Value.isHashable v

/-- Whether every graph of a list may be an element of a set. -/
def Graph.areHashable : List Graph → Bool
  | [] => true
  | g :: rest => Graph.isHashable g && Graph.areHashable rest

/-- Whether the redirects of a node may be an element of a set. -/
def Redirects.isHashable : Redirects → Bool
  | ⟨i, o, e, _⟩ => Target.isHashable? i && Target.isHashable? o && Target.isHashable? e

/-- Whether a redirect, if there is one, may be an element of a set. -/
def Target.isHashable? : Option (Labelled Target) → Bool
  | none => true
  | some ⟨_, t⟩ => Target.isHashable t

/-- Whether a target may be an element of a set. A buffer may, whatever it holds. -/
def Target.isHashable : Target → Bool
  | .graph g => Graph.isHashable g
  | .file ⟨_, v⟩ _ => Value.isHashable v
  | .stream ⟨_, v⟩ => Value.isHashable v
  | .stray ⟨_, v⟩ => Value.isHashable v
  | _ => true

end

namespace Value

/-- The items without those that are the same as or equal to an earlier one. -/
def distinct (m : Memory) (items : List Item) : List Item :=
  items.foldl (fun kept a =>
    if kept.any fun b => b.isSame a || b.it.alike m a.it then kept else kept ++ [a]) []

/-- The elements of a set of some items. -/
def elementsOf (m : Memory) (items : List Item) : Except Failure (List Item) :=
  if areHashable items then .ok (distinct m items) else .error .wrongType

end Value

end Pipework
