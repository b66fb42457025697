import Pipework.Capture

/-!
# The engines of a program

A program may have many engines. One of them is the standard engine, for callers that name none; it is
made at its first use, and can be replaced.
-/

namespace Pipework

/-- Every engine of a program, by number, and the number of the standard engine. -/
structure Registry where
  engines : List Engine := []
  standard : Option Nat := none
deriving DecidableEq, Repr

namespace Registry

/-- The engine of a number. -/
def engine (r : Registry) (n : Nat) : Engine := r.engines.getD n {}

/-- Make an engine; answers its number. -/
def add (options : Engine.Options) : Owning Registry Nat := do
  let e ← Engine.create options
  let n := (← Owning.own).engines.length
  Owning.change fun r => { r with engines := r.engines ++ [e] }
  return n

/-- The number of the standard engine, which is made now if there is none. -/
def standardEngine : Owning Registry Nat := do
  match (← Owning.own).standard with
  | some n => return n
  | none =>
    let n ← add {}
    Owning.change fun r => { r with standard := some n }
    return n

/-- Replace the standard engine; without a number the next use makes a new one. -/
def setStandard (n : Option Nat) : Owning Registry Unit :=
  Owning.change fun r => { r with standard := n }

/-- Run a step on one engine. -/
def onEngine {α : Type} (n : Nat) (m : Owning Engine α) : Owning Registry α :=
  Owning.onPart (·.engine n) (fun e r => { r with engines := r.engines.set n e }) m

end Registry

end Pipework
