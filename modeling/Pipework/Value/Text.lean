import Pipework.Graph.Basic
import Pipework.Memory

/-!
# The text of a value

A value has two texts: the one it is shown by inside messages, and the plain one. They differ for text
itself, for commands and for some objects. An argument is the plain text, except that bytes and paths
give the name they stand for. A text is that of the moment, for the objects inside a value may change.
-/

namespace Pipework

mutual

/-- A value as text: its plain text, or as it is shown inside messages. -/
def Value.render (m : Memory) (plain : Bool) : Value → Text
  | .none => "None"
  | .bool b => if b then "True" else "False"
  | .int n => Text.ofInt n
  | .float d => d.text
  | .str t => if plain then t else t.quoted
  | .bytes b => Bytes.quoted b
  | .view _ => "<memory>"
  | .path t => "FsPath(" ++ t.quoted ++ ")"
  | .bytePath b => "FsPath(" ++ Bytes.quoted b ++ ")"
  | .list items => "[" ++ Text.join ", " (Value.shownAll m items) ++ "]"
  | .tuple items =>
    let texts := Value.shownAll m items
    "(" ++ Text.join ", " texts ++ (if texts.length = 1 then ",)" else ")")
  | .set items =>
    if items.isEmpty then "set()"
    else [.char '\x7b'] ++ Text.join ", " (Value.shownAll m items) ++ [.char '\x7d']
  | .range start stop step =>
    "range(" ++ Text.ofInt start ++ ", " ++ Text.ofInt stop
      ++ (if step = 1 then [] else ", " ++ Text.ofInt step : Text) ++ ")"
  | .dict entries =>
    [.char '\x7b'] ++ Text.join ", " (Value.shownEntries m entries) ++ [.char '\x7d']
  | .object ref =>
    match ref.kind with
    | .byteArray => "bytearray(" ++ Bytes.quotedGrowable (m.bytesOf ref) ++ ")"
    | .iterator => "Gen()"
    | kind => "<" ++ kind.label ++ ">"
  | .plain text => if plain then text else "Opaque(" ++ text.quoted ++ ")"
  | .file descriptor => "FdFile(" ++ Text.ofInt descriptor ++ ")"
  | .lostFile _ => "NoFdFile()"
  | .command c _ => if plain then c.line else c.shown
  | .graph g => Graph.shown m g
  | .target t => Target.shown m t
  | .redirects r => Text.join " " (Redirects.texts m r)
  | .operation name => "<" ++ name ++ ">"

/-- Every item of a list as it is shown. -/
def Value.shownAll (m : Memory) : List Item → List Text
  | [] => []
  | ⟨_, v⟩ :: rest => Value.render m false v :: Value.shownAll m rest

/-- Every entry of a mapping as it is shown. -/
def Value.shownEntries (m : Memory) : List (Text × Item) → List Text
  | [] => []
  | (key, ⟨_, v⟩) :: rest => (key.quoted ++ ": " ++ Value.render m false v) :: Value.shownEntries m rest

/-- A graph as it is shown inside messages. -/
def Graph.shown (m : Memory) : Graph → Text
  | .leaf _ ⟨_, command⟩ r => "Leaf(" ++ Value.render m true command ++ Redirects.shownWithin m r ++ ")"
  | .pipe _ left right r =>
    "Pipe(" ++ Graph.shown m left ++ " | " ++ Graph.shown m right ++ Redirects.shownWithin m r ++ ")"
  | .group _ _ members r =>
    "Group(" ++ Text.join " & " (Graph.shownAll m members) ++ Redirects.shownWithin m r ++ ")"
  | .unknown _ name => name ++ "()"
  | .stray ⟨_, v⟩ => Value.render m false v

/-- Every graph of a list as it is shown. -/
def Graph.shownAll (m : Memory) : List Graph → List Text
  | [] => []
  | g :: rest => Graph.shown m g :: Graph.shownAll m rest

/-- The redirects of a node inside its own text: nothing if there are none. -/
def Redirects.shownWithin (m : Memory) : Redirects → Text
  | ⟨stdin, stdout, stderr, _⟩ =>
    let texts := Target.texts m .stdin stdin ++ Target.texts m .stdout stdout
      ++ Target.texts m .stderr stderr
    if texts.isEmpty then [] else " [" ++ Text.join " " texts ++ "]"

/-- The redirects of a node one by one. -/
def Redirects.texts (m : Memory) : Redirects → List Text
  | ⟨stdin, stdout, stderr, _⟩ =>
    Target.texts m .stdin stdin ++ Target.texts m .stdout stdout ++ Target.texts m .stderr stderr

/-- The redirect of one stream, if there is one. -/
def Target.texts (m : Memory) (s : Stream) : Option (Labelled Target) → List Text
  | none => []
  | some ⟨_, t⟩ => [s.text ++ Target.shown m t]

/-- A redirect target as it is shown inside messages. -/
def Target.shown (m : Memory) : Target → Text
  | .graph g => "graph(" ++ Graph.shown m g ++ ")"
  | .file ⟨_, path⟩ append => (if append then ">>" else ">") ++ Value.render m true path
  | .buffer ⟨_, v⟩ => "buffer(" ++ v.typeName ++ ")"
  | .stream ⟨_, v⟩ =>
    if v.whole? = some Target.nullNumber then "devnull" else "stream(" ++ Value.render m false v ++ ")"
  | .endpoint => "PIPE"
  | .unknown name => name ++ "()"
  | .stray ⟨_, v⟩ => Value.render m false v

end

/-- The redirects of a node as they are listed. -/
def Redirects.shown (m : Memory) (r : Redirects) : Text := Text.join " " (r.texts m)

namespace Value

/-- A value as it is shown inside messages. -/
def shown (m : Memory) (v : Value) : Text := v.render m false

/-- The plain text of a value. -/
def text (m : Memory) (v : Value) : Text := v.render m true

/-- A value as what a process runs. -/
def job (m : Memory) : Value → Job
  | command c _ => .command c
  | v => .other (text m v) (shown m v)

/-- The argument that a value becomes. -/
def argument (m : Memory) : Value → Text
  | str t => t
  | bytes b => Text.ofBytes b
  | path t => t
  | bytePath b => Text.ofBytes b
  | object ref =>
    if ref.kind = .byteArray then Text.ofBytes (m.bytesOf ref) else shown m (.object ref)
  | v => text m v

/-- Which object an argument is that a value becomes, where it is no new one: a text goes into a command
as it is, and so does the text that a path or a plain object holds. The texts of truth values exist once. -/
def argumentLabel? (i : Item) : Option Label :=
  match i.it with
  | str _ => some i.label
  | path _ | plain _ => some (.part i.label "text")
  | bool b => some (.constant (if b then "text of true" else "text of false"))
  | _ => Option.none

/-- Which object an argument is that a value becomes, where a new one has its place in a whole. -/
def argumentLabel (whole : Label) (place : Nat) (i : Item) : Label :=
  (argumentLabel? i).getD <| match i.it with
    | int _ => .numeral whole (Text.ofNat place)
    | _ => .part whole (Text.ofNat place)

end Value

end Pipework
