import Pipework.Text.Lines
import Pipework.Wording

/-!
# Going through a value

A value is a scalar, a sequence, or a mapping. A sequence object that can be gone through once is empty
afterwards, for good.
-/

namespace Pipework

/-- How a value is interpolated. -/
inductive Shape where
  /-- As one text. -/
  | scalar
  /-- Element by element. -/
  | sequence
deriving DecidableEq, Repr

/-- The arguments of a command as the objects that they are, with one label for each. -/
def Command.items (c : Command) (words : List Label) : List Item :=
  List.zipWith (fun label t => ⟨label, .str t⟩) words c.args

namespace Value

/-- The shape of a value. A mapping has none: the order of its entries means nothing. -/
def shape : Value → Except BuildError Shape
  | dict _ => .error (.mapping "dict")
  | list _ | tuple _ | set _ | range .. | view _ | command .. => .ok .sequence
  | object ref =>
    match ref.kind with
    | .byteArray | .sink | .source => .ok .scalar
    | .byteStream | .textStream | .textSink | .iterator => .ok .sequence
  | _ => .ok .scalar

/-- The bytes of a content as numbers. -/
def ofBytes (b : Bytes) : List Value := b.map fun x => int x.toNat

/-- The elements of a value that does not change when it is gone through. -/
def items? : Value → Option (List Value)
  | list items | tuple items | set items => some (items.map (·.it))
  | range start stop step => some ((rangeItems start stop step).map int)
  | bytes b | view b => some (ofBytes b)
  | dict entries => some (entries.map fun (key, _) => str key)
  | command c _ => some (c.args.map str)
  | str t => some (t.map fun r => str [r])
  | _ => Option.none

/-- The range that one to three whole numbers mean: where it stops; where it starts and stops; or those
and its step. -/
def ofRange : List Int → Except Failure Value
  | [stop] => .ok (range 0 stop 1)
  | [start, stop] => .ok (range start stop 1)
  | [_, _, 0] => .error (.misuse .zeroStride)
  | [start, stop, step] => .ok (range start stop step)
  | _ => .error .wrongType

end Value

namespace Memory

/-- The elements of an object, and the memory after they were taken. -/
def drain (m : Memory) (ref : ObjectRef) : Except Failure (List Value) × Memory :=
  match m.get? ref with
  | some (.iterator rest) => (.ok (rest.map (·.it)), m.put ref (.iterator []))
  | some (.byteArray content) => (.ok (Value.ofBytes content), m)
  | some (.byteStream content position) =>
    (.ok ((splitAfter (· == 10) (content.drop position)).map .bytes),
      m.put ref (.byteStream content content.length))
  | some (.textStream content position) =>
    (.ok ((splitAfter (· == Rune.char '\n') (content.drop position)).map .str),
      m.put ref (.textStream content content.length))
  | some (.textSink _) => (.error (.unsupported "readline"), m)
  | _ => (.error .wrongType, m)

/-- The elements of a value, and the memory after they were taken. -/
def iterate (m : Memory) : Value → Except Failure (List Value) × Memory
  | .object ref => m.drain ref
  | v =>
    match v.items? with
    | some items => (.ok items, m)
    | none => (.error .wrongType, m)

/-- The items that going through a value gives, where they were there before; none where they are made
on the way. Equal keys of mappings are one object. -/
def keptItems (m : Memory) : Value → List Item
  | .list items | .tuple items | .set items => items
  | .command c words => c.items words
  | .dict entries => entries.map fun (key, _) => ⟨.constant ("key " ++ key), .str key⟩
  | .object ref => m.restOf ref
  | _ => []

/-- The values that going through a value gave as the items that they are: those that were there before,
or new ones as parts of a whole. -/
def itemsAmong (m : Memory) (whole : Label) (v : Value) (values : List Value) : List Item :=
  match m.keptItems v with
  | [] => values.mapIdx fun n element => ⟨.part whole (Text.ofNat n), element⟩
  | kept => kept

end Memory

end Pipework
