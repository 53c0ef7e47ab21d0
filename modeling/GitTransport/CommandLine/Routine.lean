/-
Routines: what a command does, step by step.

  A routine calls the library and prints lines.  A call that fails ends the routine with
  its error.  A line is printed when the routine comes to it, and stays printed if a
  call behind it fails.
-/

import GitTransport.Hints
import GitTransport.Repository.Basic

namespace GitTransport.CommandLine

/-- What a command does until it has an `α`. -/
inductive Routine (α : Type) : Type 1 where
  /-- The routine is over. -/
  | done (result : α)
  /-- A line for the output. -/
  | say (line : String) (next : Routine α)
  /-- A call of the library, and what follows its result. -/
  | call {β : Type} (job : Job β) (next : β → Routine α)
  /-- The routine cannot go on. -/
  | refuse (failure : Failure)

namespace Routine

variable {α β : Type}

/-- Continue the end of a routine. -/
def bind : Routine α → (α → Routine β) → Routine β
  | .done a, f => f a
  | .say line next, f => .say line (next.bind f)
  | .call job next, f => .call job fun b => (next b).bind f
  | .refuse failure, _ => .refuse failure

instance : Monad Routine where
  pure := .done
  bind := bind

/-- One call of the library. -/
def ofJob (job : Job α) : Routine α := .call job .done

/-- One call on a proxy, which is used again behind it. -/
def onProxy (proxy : Proxy) (job : ProxyJob α) : Routine (α × Proxy) :=
  ofJob (ExceptT.mk (job.runOn proxy >>= fun (outcome, proxy) =>
    .done (outcome.map fun a => (a, proxy))))

/-- Print lines. -/
def sayAll (lines : List String) : Routine Unit := lines.foldr say (.done ())

/-- Run a routine; the lines that it printed are there also when it failed. -/
def run : Routine α → Client (Except Failure α × List String)
  | .done a => .done (.ok a, [])
  | .say line next => next.run >>= fun (result, lines) => .done (result, line :: lines)
  | .call job next => job.run >>= fun
    | .ok b => (next b).run
    | .error error => .done (.error (.operation error), [])
  | .refuse failure => .done (.error failure, [])

end Routine

end GitTransport.CommandLine
