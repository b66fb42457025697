import Pipework.Command.Basic
import Pipework.Text.Basic

/-!
# Exit status

The status of one command of a graph: its process, and the code it ended with. A negative code names
the signal that ended the process; no code means that it still runs.
-/

/-!
## Signals and exit codes

A process that a signal ended has the signal's number, negated, as its code. `describeExit` says in
words how a process stands.
-/

namespace Pipework.Signal

/-- The signal that ends a process at once. -/
def kill : Nat := 9

/-- The signal of a write that nobody reads. -/
def brokenPipe : Nat := 13

/-- The signal that asks a process to end. -/
def terminate : Nat := 15

/-- The names of the signals from 1 to 31. -/
def names : List String :=
  ["SIGHUP", "SIGINT", "SIGQUIT", "SIGILL", "SIGTRAP", "SIGABRT", "SIGBUS", "SIGFPE", "SIGKILL",
   "SIGUSR1", "SIGSEGV", "SIGUSR2", "SIGPIPE", "SIGALRM", "SIGTERM", "SIGSTKFLT", "SIGCHLD",
   "SIGCONT", "SIGSTOP", "SIGTSTP", "SIGTTIN", "SIGTTOU", "SIGURG", "SIGXCPU", "SIGXFSZ",
   "SIGVTALRM", "SIGPROF", "SIGWINCH", "SIGIO", "SIGPWR", "SIGSYS"]

/-- The name of a signal; of the real-time signals only the first and the last have one. -/
def name? (number : Int) : Option String :=
  if number = 34 then some "SIGRTMIN"
  else if number = 64 then some "SIGRTMAX"
  else if 1 ≤ number then names[(number - 1).toNat]?
  else none

end Pipework.Signal

namespace Pipework

/-- How a process stands, from its code and the signal that ended it. -/
def describeExit (code signal : Option Int) : Text :=
  match signal, code with
  | some number, _ =>
    "signal " ++ (match Signal.name? number with
      | some name => Text.ofString name
      | none => Text.ofInt number)
  | none, none => "still running"
  | none, some code => "exit " ++ Text.ofInt code

end Pipework

/-! ## Processes of a graph -/

namespace Pipework

/-- What a process runs. -/
inductive Job where
  | command (c : Command)
  /-- Something that stands for a command, by its plain text and by how it is shown. -/
  | other (line shown : Text)
deriving DecidableEq, Repr

namespace Job

/-- A job as one line. -/
def line : Job → Text
  | command c => c.line
  | other line _ => line

/-- A job as it is shown inside messages. -/
def shown : Job → Text
  | command c => c.shown
  | other _ shown => shown

end Job

/-- The exit status of one command. -/
structure ProcessStatus where
  job : Job
  pid : Option Int
  code : Option Int := none
  /-- The command's exit code counts for nothing. -/
  ignored : Bool := false
deriving DecidableEq, Repr

namespace ProcessStatus

/-- Whether the process still runs. -/
def running (s : ProcessStatus) : Bool := s.code.isNone

/-- The signal that ended the process. -/
def signal (s : ProcessStatus) : Option Int :=
  s.code.bind fun code => if code < 0 then some (-code) else none

/-- The code of a process that ended by itself. -/
def exitCode (s : ProcessStatus) : Option Int :=
  s.code.bind fun code => if code < 0 then none else some code

/-- Whether the process ended with code zero. -/
def success (s : ProcessStatus) : Bool := s.code == some 0

/-- Whether the process ended in a way that counts as a failure. -/
def failed (s : ProcessStatus) : Bool := !s.ignored && s.code.isSome && s.code != some 0

/-- How the process stands, in words. -/
def description (s : ProcessStatus) : Text := describeExit s.code s.signal

/-- A process number as it is shown. -/
def pidText (s : ProcessStatus) : Text := (s.pid.map Text.ofInt).getD "None"

/-- The status in one line. -/
def text (s : ProcessStatus) : Text :=
  s.job.line ++ " [pid " ++ s.pidText ++ ", " ++ s.description
    ++ (if s.ignored then ", ignored" else "") ++ "]"

/-- The status field by field. -/
def shown (s : ProcessStatus) : Text :=
  "ProcessStatus(command=" ++ s.job.shown ++ ", pid=" ++ s.pidText ++ ", returncode="
    ++ (s.code.map Text.ofInt).getD "None" ++ ", ignored=" ++ (if s.ignored then "True" else "False")
    ++ ")"

end ProcessStatus

end Pipework
