import Pipework.Text.Basic

/-!
# The three standard streams
-/

namespace Pipework

/-- A standard stream of a process or of a graph. -/
inductive Stream where
  | stdin
  | stdout
  | stderr
deriving DecidableEq, Repr

namespace Stream

/-- Every stream, in descriptor order. -/
def all : List Stream := [stdin, stdout, stderr]

/-- The name of a stream. -/
def name : Stream → String
  | stdin => "stdin"
  | stdout => "stdout"
  | stderr => "stderr"

/-- The name of a stream as text. -/
def text (s : Stream) : Text := Text.ofString s.name

/-- The stream of a name. -/
def ofName? (name : Text) : Option Stream := all.find? fun s => s.text == name

end Stream

end Pipework
