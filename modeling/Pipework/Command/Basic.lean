import Pipework.Text.Basic

/-!
# Commands

A command is the argument vector of one external program, never read by a shell, together with the
wish that its exit code be ignored.
-/

/-!
## Shell words

The written form of an argument that a shell, or a command template, reads back as that one argument:
a word of plain characters as it is, anything else between apostrophes, with each apostrophe of its own
taken out of the quotes and put between double quotes.
-/

namespace Pipework.Text

/-- A character that stands for itself in every shell context. -/
def isPlain (c : Char) : Bool := c.isAlphanum || "_@%+=:,./-".toList.contains c

/-- The runes that a quoted word shows for one rune of an argument. -/
def shellEscape : Rune → Text
  | .char '\'' => ['\'', '"', '\'', '"', '\''].map Rune.char
  | r => [r]

/-- The shell word of an argument. -/
def shellWord (t : Text) : Text :=
  if t.isEmpty then [.char '\'', .char '\'']
  else if t.all fun r => r.toChar?.any isPlain then t
  else [.char '\''] ++ t.flatMap shellEscape ++ [.char '\'']

/-- The line of a list of arguments. -/
def shellLine (args : List Text) : Text := join [.char ' '] (args.map shellWord)

end Pipework.Text

/-! ## Argument vectors -/

namespace Pipework

/-- A program name, which is not empty, and its arguments. -/
structure Command where
  program : Text
  arguments : List Text := []
  /-- A failure of this command is no failure of its graph. -/
  ignoresStatus : Bool := false
  program_ne_nil : program ≠ []
deriving DecidableEq, Repr

namespace Command

/-- The argument vector, the program's name first. -/
def args (c : Command) : List Text := c.program :: c.arguments

/-- The same command with its exit code ignored. -/
def ignoreStatus (c : Command) : Command := { c with ignoresStatus := true }

/-- The command as one shell line. -/
def line (c : Command) : Text := Text.shellLine c.args

/-- The command as it is shown inside messages. -/
def shown (c : Command) : Text :=
  "Command(" ++ c.line ++ (if c.ignoresStatus then ", ignore_status" else "") ++ ")"

instance : Inhabited Command := ⟨⟨[.char '-'], [], false, by simp⟩⟩

end Command

end Pipework
