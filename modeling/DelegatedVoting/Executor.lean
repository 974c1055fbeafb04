import DelegatedVoting.Identifier
import Std.Data.ExtTreeMap

/-!
# The executor

Calls of the engine go through an executor, which holds a lease on the proposal that a call is
about for as long as the call lasts, and which can be closed. Calls come one at a time.

* `Executor`, `Executor.ofLimit?`, `Executor.close`;
* `Executor.acquire`, `Executor.release`: leases;
* `Executor.run`: the result of a call.
-/

namespace DelegatedVoting

/-- What runs the calls of the engine. -/
structure Executor where
  /-- The number of calls that may run at the same time. -/
  limit : Nat
  isClosed : Bool
  /-- The numbers of calls that hold a lease on each proposal. -/
  leases : Std.ExtTreeMap ProposalId Nat
  deriving DecidableEq

namespace Executor

/-- Why a call has no result. -/
inductive Failure
  | closed
  /-- The call broke off. -/
  | brokenOff
  deriving DecidableEq, Repr

/-- The report of a closed executor. -/
def closedMessage : String := "executor is shut down"

/-- The largest number of calls that may run at the same time. -/
def maxLimit : Nat := 2305843009213693951

/-- The report of a limit that is too large. -/
def excessMessage : String :=
  "a semaphore may not have more than MAX_PERMITS permits (" ++ toString maxLimit ++ ")"

/-- An executor for at least one call at a time, unless the limit is too large. -/
def ofLimit? (limit : Nat) : Option Executor :=
  if limit ≤ maxLimit then some ⟨max 1 limit, false, ∅⟩ else none

/-- Admit no more calls. -/
def close (e : Executor) : Executor := { e with isClosed := true }

/-- Begin a lease. -/
def acquire (p : ProposalId) (e : Executor) : Executor :=
  { e with leases := e.leases.insert p (e.leases.getD p 0 + 1) }

/-- End a lease. What nobody leases is forgotten. -/
def release (p : ProposalId) (e : Executor) : Executor :=
  match e.leases.getD p 0 with
  | 0 | 1 => { e with leases := e.leases.erase p }
  | n + 2 => { e with leases := e.leases.insert p (n + 1) }

/-- The number of proposals that calls are about. -/
def active (e : Executor) : Nat := e.leases.size

/-- Run a call, which may be about a proposal, and which may break off. -/
def run {α : Type} (e : Executor) (key : Option ProposalId) (call : Option α) :
    Except Failure α × Executor :=
  if e.isClosed then (.error .closed, e)
  else
    let result := match call with
      | some a => .ok a
      | none => .error .brokenOff
    (result, key.elim e fun p => (e.acquire p).release p)

end Executor

end DelegatedVoting
