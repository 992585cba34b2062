/-!
**Interruption.**

A query may be given up: because its caller cancelled it, or because its time is over. The graph is
built first, which may take any time; only then is the interrupt looked at, and the search takes no
time of its own. How long a query has waited for its graph is therefore a part of the interrupt, and
whether it has tripped is a matter of its fields.
-/

namespace CallGraph

/-- Why a query was given up. -/
inductive Interruption where
  | cancelled
  | deadlineExceeded
  deriving DecidableEq, Repr

namespace Interruption

/-- The wording of a cause. -/
def text : Interruption → String
  | cancelled => "cancelled by caller"
  | deadlineExceeded => "deadline exceeded"

end Interruption

/-- A cancellation flag and a deadline, and when they are looked at. -/
structure Interrupt where
  /-- The caller has cancelled. -/
  cancelled : Bool := false
  /-- The milliseconds from the start of the query to the deadline, if there is one. -/
  remaining : Option Nat := none
  /-- The milliseconds from the start of the query until somebody looks. -/
  waited : Nat := 0
  deriving DecidableEq, Repr

namespace Interrupt

/-- The interrupt that never trips. -/
def none : Interrupt := {}

/-- The interrupt with a deadline of its own, in place of the one it had. -/
def withTimeout (i : Interrupt) (milliseconds : Nat) : Interrupt :=
  { i with remaining := some milliseconds }

/-- Whether a time limit, if there is one, is over after some milliseconds. -/
def isOver (limit : Option Nat) (waited : Nat) : Bool :=
  limit.any (· ≤ waited)

/-- The cause, if the interrupt has tripped. A cancellation comes before a missed deadline. -/
def tripped? (i : Interrupt) : Option Interruption :=
  if i.cancelled then some .cancelled
  else if isOver i.remaining i.waited then some .deadlineExceeded
  else Option.none

end Interrupt

end CallGraph
