import CallGraph.Flow

/-!
**Walks from a symbol.**

What a function calls, directly or through others, and what calls it: the calls that can be reached
from a start node along calls that a filter passes.

* `callsAt` — the passing calls of a node, `next` — where they lead in the direction of the walk;
* `searchFrom` — the search along them, `found` — the calls at the nodes from which it goes on;
* `callees`, `callers` — the flow of these calls, for the two directions;
* `toward`, `run` — a walk in a given direction, without and with a report of it.
-/

namespace CallGraph.Walk

/-- The calls of a node that a filter passes: those that it makes, or those that it receives. -/
def callsAt (f : Filter) (forward : Bool) (v : Nat) : List (Edge × Nat) :=
  (if forward then f.graph.outgoing v else f.graph.incoming v).filter fun (e, _) => f.passes e

/-- The node that a call leads to in the direction of the walk. -/
def ahead (forward : Bool) (e : Edge) : Nat :=
  if forward then e.callee else e.caller

/-- The nodes that a walk may go on to from a node, once for every call. -/
def next (f : Filter) (forward : Bool) (v : Nat) : List Nat :=
  (callsAt f forward v).map fun (e, _) => ahead forward e

/-- The limit that a bound stands for. A bound of 0 is none. -/
def limit (bound : Nat) : Option Nat :=
  if bound = 0 then none else some bound

/-- The search that a walk makes. -/
def searchFrom (f : Filter) (forward : Bool) (bound start : Nat) : Search :=
  search f.graph.nodes.size (next f forward) (limit bound) [start]

/-- The passing calls at the nodes from which the walk goes on, in the order of the walk. -/
def found (f : Filter) (forward : Bool) (bound start : Nat) : List (Edge × Nat) :=
  (searchFrom f forward bound start).expanded.reverse.flatMap (callsAt f forward)

/-- One walk. It finds nothing if it starts at no node, and notices an interrupt otherwise. -/
def along (f : Filter) (forward : Bool) (bound start : Nat) (interrupt : Interrupt) :
    Except Interruption Flow :=
  if f.graph.contains start then
    match interrupt.tripped? with
    | some cause => .error cause
    | none => .ok (Flow.ofEdges (found f forward bound start))
  else .ok Flow.empty

/-- The callees of the start, directly or through others. -/
def callees (f : Filter) (bound start : Nat) (interrupt : Interrupt) :
    Except Interruption Flow :=
  along f true bound start interrupt

/-- The callers of the start, directly or through others. -/
def callers (f : Filter) (bound start : Nat) (interrupt : Interrupt) :
    Except Interruption Flow :=
  along f false bound start interrupt

/-- A walk in a given direction; both ways are walked separately and united. -/
def toward (f : Filter) (direction : Direction) (bound start : Nat) (interrupt : Interrupt) :
    Except Interruption Flow :=
  match direction with
  | .callees => callees f bound start interrupt
  | .callers => callers f bound start interrupt
  | .both => do
    let down ← callees f bound start interrupt
    let up ← callers f bound start interrupt
    return down.union up

/-- Why a walk has no answer. -/
inductive Failure where
  | interrupted (cause : Interruption)
  /-- The report of a walk names its start, so a walk cannot start at a number that is no node. -/
  | noSuchStart
  deriving DecidableEq, Repr

/-- A walk in a given direction, with a report of what it found. The report names the start, which has
to be a node even if the walk itself finds nothing. -/
def run (f : Filter) (direction : Direction) (bound start : Nat) (interrupt : Interrupt) :
    ExceptT Failure Logged Flow := do
  match toward f direction bound start interrupt with
  | .error cause => throw (.interrupted cause)
  | .ok flow =>
    match f.graph.node? start with
    | none => throw .noSuchStart
    | some node =>
      Logged.note (.walked direction node.id flow.nodeCount flow.edgeCount)
      return flow

end CallGraph.Walk
