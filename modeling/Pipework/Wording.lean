import Pipework.Value.Text

/-!
# The words of build errors

A build error is worded when it reaches the caller, with the memory of that moment, for it may show
graphs. A value that stands for a node or for a command is not reported as a build error: the caller
learns that it lacks what it was asked for.
-/

namespace Pipework

/-- A conflict in words. -/
def Conflict.message (m : Memory) : Conflict → Text
  | pipeFrom left => "Cannot pipe from " ++ left.shown m ++ ": stdout is already redirected"
  | pipeInto right => "Cannot pipe into " ++ right.shown m ++ ": stdin is already redirected"
  | redirected stream graph => stream.text ++ " of " ++ graph.shown m ++ " is already redirected"
  | connected stream other taken =>
    "Cannot connect " ++ stream.text ++ " to " ++ other.shown m ++ ": its " ++ taken.text
      ++ " is already redirected"
  | twice stream place => stream.text ++ " given both as " ++ place ++ " stage and as keyword"

/-- A build error in words. -/
def BuildError.message (m : Memory) : BuildError → Text
  | template e => e.message
  | conflict c => c.message m
  | mapping typeName =>
    "Cannot interpolate a mapping (" ++ typeName ++ "); pass its keys, values or items explicitly"
  | textAsArguments => "Command() takes an argument sequence; use cmd() to parse a template"
  | noProgram => "Command needs at least a program name"
  | emptyProgram => "Empty program name"
  | emptyTemplate t => "Empty command template: " ++ t.quoted
  | noArguments t => "Template " ++ t.quoted ++ " expanded to no arguments"
  | unknownStream name => "Unknown stream " ++ name.shown m
  | appendToInput => "Append mode makes no sense for stdin"
  | truthValue stream value =>
    "Cannot redirect " ++ stream.text ++ " to " ++ (if value then "True" else "False")
  | immutableOutput stream typeName =>
    "Cannot write " ++ stream.text ++ " into immutable " ++ typeName ++ "; use bytearray"
  | noTarget stream typeName => "Cannot redirect " ++ stream.text ++ " to " ++ typeName
  | notAGraph typeName =>
    "Cannot use " ++ typeName ++ " as a process graph; build a Command with cmd()"
  | repeatedNode node =>
    node.shown m ++ " is used more than once in the same graph; "
      ++ "build a separate node for each position"
  | noMembers => "parallel() needs at least one member"
  | noStages => "pipeline() needs at least one stage"
  | repeatedEndpoint stream =>
    "Only one caller endpoint per stream (" ++ stream.text ++ " requested twice)"
  | rigidNode kind => "Cannot redirect a node of kind " ++ kind
  | noNode typeName => Text.quoted typeName ++ " is no node"
  | noCommand typeName => Text.quoted typeName ++ " is no command"
  | unknownNode kind => "Unknown graph node: " ++ kind
  | unknownTarget target => "Unknown redirect target: " ++ target.shown m

/-- A build error as the failure that the caller sees. -/
def BuildError.failure (m : Memory) : BuildError → Failure
  | noNode typeName => .lacking typeName "redirects"
  | noCommand typeName => .lacking typeName "args"
  | rigidNode _ => .wrongType
  | e => .build e (e.message m)

/-- The outcome of a step of building as the caller sees it. -/
def BuildError.report {α : Type} (m : Memory) (e : Except BuildError α) : Except Failure α :=
  e.mapError (·.failure m)

end Pipework
