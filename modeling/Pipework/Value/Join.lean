import Pipework.Value.Equality
import Pipework.Value.Sequence

/-!
# Joining plain values

Commands and graphs are joined to pipes and groups. Numbers can be joined too, bit by bit, where below zero
every bit counts from the far side; sets by their elements; and mappings, of which the second wins. Other
values cannot be joined.
-/

namespace Pipework

/-- How two values are joined. -/
inductive Join where
  /-- What is in one of them. -/
  | either
  /-- What is in both of them. -/
  | both
deriving DecidableEq, Repr

namespace Join

/-- The bits that one of two numbers has. -/
def bitsOfEither (a b : Int) : Int :=
  let flipped (n : Int) : Nat := (-n - 1).toNat
  match decide (0 ≤ a), decide (0 ≤ b) with
  | true, true => ((a.toNat ||| b.toNat : Nat) : Int)
  | true, false => -((flipped b - (flipped b &&& a.toNat) : Nat) : Int) - 1
  | false, true => -((flipped a - (flipped a &&& b.toNat) : Nat) : Int) - 1
  | false, false => -((flipped a &&& flipped b : Nat) : Int) - 1

/-- Two numbers joined bit by bit. -/
def bits (j : Join) (a b : Int) : Int :=
  match j with
  | either => bitsOfEither a b
  | both => -bitsOfEither (-a - 1) (-b - 1) - 1

/-- Two sets joined. Of elements that are in both, a union keeps those of the first set and an
intersection those of the smaller one. -/
def elements (m : Memory) (j : Join) (a b : List Item) : List Item :=
  match j with
  | either => Value.distinct m (a ++ b)
  | both =>
    let (large, small) := if a.length < b.length then (b, a) else (a, b)
    small.filter fun x => large.any fun y => y.isSame x || y.it.alike m x.it

/-- Two mappings in one. -/
def entries (a b : List (Text × Item)) : List (Text × Item) :=
  a.map (fun (key, i) => (key, (b.lookup key).getD i))
    ++ b.filter fun (key, _) => (a.lookup key).isNone

/-- Two values joined. -/
def values (m : Memory) (j : Join) (a b : Value) : Except Failure Value :=
  match j, a, b with
  | either, .bool p, .bool q => .ok (.bool (p || q))
  | both, .bool p, .bool q => .ok (.bool (p && q))
  | j, .bool _, .int _ | j, .int _, .bool _ | j, .int _, .int _ =>
    match a.whole?, b.whole? with
    | some p, some q => .ok (.int (bits j p q))
    | _, _ => .error .wrongType
  | j, .set x, .set y => .ok (.set (elements m j x y))
  | either, .dict x, .dict y => .ok (.dict (entries x y))
  | _, _, _ => .error .wrongType

end Join

end Pipework
