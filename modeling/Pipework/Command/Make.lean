import Pipework.Command.Template
import Pipework.System.World

/-!
# Making commands

The steps of the system that make arguments and commands. What they went through stays gone through,
and the words that became other than one argument are noted in the log, also when no command comes of
them.
-/

namespace Pipework

/-- Keep what an expansion left in memory, and log its notes. -/
def keepExpansion (logger : Text) (memory : Memory) (notes : List ExpansionNote) : Sim Unit := do
  modify fun w => { w with memory }
  notes.forM fun n => note logger .debug n.text

/-- The arguments of some words. -/
def argumentsOfWords (words : List (Template.Word Value)) : Sim (List Text) := do
  let r := expand words (← world).memory
  keepExpansion "ArgumentExpander" r.memory r.notes
  Sim.ofExcept r.arguments

/-- A number that no other object has. -/
def drawNumber : Sim Nat := modifyGet fun w => (w.nextNumber, { w with nextNumber := w.nextNumber + 1 })

namespace Command

/-- The command of a template with its markers bound. -/
def read (template : Text) (bindings : Template.Bindings Item) : Sim Value := do
  let number ← drawNumber
  let r := ofTemplate (← world).memory number template bindings
  keepExpansion "Command" r.memory r.notes
  Sim.ofExcept r.command

/-- The command of a value that holds its arguments. -/
def gather (args : Value) (ignoresStatus : Bool) : Sim Value := do
  let number ← drawNumber
  let (command, memory) := ofValue (← world).memory number args ignoresStatus
  keepExpansion "Command" memory []
  Sim.ofExcept command

end Command

end Pipework
