import Pipework.Argument

/-!
# Commands from arguments and templates

A text that is given as an argument, or that stands for itself in a template, goes into the command as
the object that it is; so does what a path or a plain object holds. Every other argument is a new text.
New texts are told apart by the number of their command, which no other object has, and by their place;
the texts of a sequence's elements are the same ones wherever the sequence stands in a template.
-/

namespace Pipework

namespace Command

/-- The command of an argument vector. -/
def ofArgs (args : List Text) (ignoresStatus : Bool) : Except BuildError Command :=
  match args with
  | [] => .error .noProgram
  | program :: arguments =>
    if h : program ≠ [] then .ok ⟨program, arguments, ignoresStatus, h⟩ else .error .emptyProgram

/-- The command of a value that holds its arguments, and the memory after they were taken. -/
def ofValue (memory : Memory) (number : Nat) (args : Value) (ignoresStatus : Bool) :
    Except Failure Value × Memory :=
  match args with
  | .str _ | .bytes _ => (.error (BuildError.textAsArguments.failure memory), memory)
  | _ =>
    let (values, after) := memory.iterate args
    (values.bind fun values =>
      let items := memory.itemsAmong (.part (.own number) "items") args values
      BuildError.report after
        ((ofArgs (values.map (Value.argument after)) ignoresStatus).map
          (Value.command · (items.mapIdx (Value.argumentLabel (.own number))))),
      after)

/-- Whether a token adds nothing to its word. -/
def isBlank (m : Memory) (t : Template.Token Item) : Bool :=
  match ((Expansion.tokenTexts (t.map (·.it))).run { memory := m }).1 with
  | .ok [[]] => true
  | _ => false

/-- Which objects the texts of a sequence's elements are, in the command of a number. -/
def elementLabels (m : Memory) (number : Nat) (i : Item) : List Label :=
  let whole : Label := .part i.label ("elements " ++ Text.ofNat number)
  match (m.iterate i.it).1 with
  | .ok values => (m.itemsAmong whole i.it values).mapIdx (Value.argumentLabel whole)
  | .error _ => []

/-- Which objects the arguments of a word are, where only one marker adds to it: those that it stands
for. Elements that are joined are a new text, but for one alone. -/
def labelsOfWord (m : Memory) (number : Nat) (w : Template.Word Item) : List Label :=
  match w.tokens.filter (!isBlank m ·) with
  | [.marker _ i _ quoted] =>
    match i.it.shape with
    | .ok .sequence =>
      match elementLabels m number i, quoted with
      | [label], _ => [label]
      | labels, false => labels
      | _, true => []
    | _ => [Value.argumentLabel (.own number) w.pos i]
  | _ => []

/-- Which objects the arguments of some words are. A word that became other than one argument is noted
with how many it became. -/
def labelsOfWords (m : Memory) (number : Nat) (notes : List ExpansionNote)
    (words : List (Template.Word Item)) : List Label :=
  words.flatMap fun w =>
    let count := ((notes.find? (·.pos == w.pos)).map (·.count)).getD 1
    let labels := labelsOfWord m number w
    let whole : Label := .part (.own number) (Text.ofNat w.pos)
    let made := ((List.range count).drop labels.length).map fun n => Label.part whole (Text.ofNat n)
    (labels ++ made).take count

/-- The outcome of reading a template as a command. -/
structure TemplateResult where
  command : Except Failure Value
  memory : Memory
  notes : List ExpansionNote

/-- The command of a template with its markers bound. -/
def ofTemplate (memory : Memory) (number : Nat) (template : Text)
    (bindings : Template.Bindings Item) : TemplateResult :=
  match Template.tokenize template bindings with
  | .error e => ⟨.error ((BuildError.template e).failure memory), memory, []⟩
  | .ok [] => ⟨.error ((BuildError.emptyTemplate template).failure memory), memory, []⟩
  | .ok words =>
    let result := expand (words.map (Template.Word.map (·.it))) memory
    let command := result.arguments.bind fun args =>
      if args.isEmpty then .error ((BuildError.noArguments template).failure result.memory)
      else BuildError.report result.memory
        ((ofArgs args false).map
          (Value.command · (labelsOfWords memory number result.notes words)))
    ⟨command, result.memory, result.notes⟩

/-- The argument at a place; places from the end count from -1. -/
def arg? (c : Command) (index : Int) : Option Text :=
  let place := if index < 0 then index + c.args.length else index
  if place < 0 then none else c.args[place.toNat]?

/-- The argument at a place that the caller has to give. -/
def argAt (c : Command) : Option Int → Except Failure Text
  | some index =>
    match c.arg? index with
    | some t => .ok t
    | none => .error .indexOutOfRange
  | none => .error .wrongType

/-- The limits of a slice, brought into a list of `length` elements. -/
def sliceBounds (length : Int) (start stop : Option Int) (step : Int) : Int × Int :=
  let lower : Int := if step < 0 then -1 else 0
  let upper : Int := if step < 0 then length - 1 else length
  let clamp (i : Int) : Int :=
    if i < 0 then max (i + length) lower else min i upper
  (match start with
    | some i => clamp i
    | none => if step < 0 then upper else lower,
   match stop with
    | some i => clamp i
    | none => if step < 0 then lower else upper)

/-- The arguments from `start` to before `stop`, every `step`-th. -/
def slice (c : Command) (start stop step : Option Int) : Except Misuse (List Text) :=
  let step := step.getD 1
  if step = 0 then .error .zeroStep
  else
    let (first, last) := sliceBounds c.args.length start stop step
    .ok ((Value.rangeItems first last step).filterMap fun i => c.args[i.toNat]?)

/-- The arguments of a slice that is given by one to three limits: where it stops; where it starts and
stops; or those and its step. -/
def sliceOf (c : Command) : List (Option Int) → Except Failure (List Text)
  | [stop] => (c.slice none stop none).mapError .misuse
  | [start, stop] => (c.slice start stop none).mapError .misuse
  | [start, stop, step] => (c.slice start stop step).mapError .misuse
  | _ => .error .wrongType

end Command

end Pipework
