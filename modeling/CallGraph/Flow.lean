import CallGraph.Depth
import CallGraph.Filter

/-!
**Flows.**

What a query selects from a graph: pairs of caller and callee, each with the number of the first
edge selected for it. The nodes of a flow are the ends of its pairs.

* `Flow.insert`, `Flow.union` — how a flow grows; of several edges of a pair the one with the
  smallest number stands for it;
* `Flow.ofEdges` — the flow of a list of edges;
* `selectWhole` — the part of a whole graph that a filter and a depth map admit.
-/

namespace CallGraph

/-- A pair of caller and callee with the edge that stands for it. -/
structure Link where
  caller : Nat
  callee : Nat
  edge : Nat
  deriving DecidableEq, Repr

namespace Link

/-- Whether two links join the same pair. -/
def samePair (a b : Link) : Bool :=
  a.caller == b.caller && a.callee == b.callee

/-- Whether the pair of one link comes before that of another: by caller, then by callee. -/
def before (a b : Link) : Bool :=
  a.caller < b.caller || (a.caller == b.caller && a.callee < b.callee)

end Link

/-- A selection of calls: links in the order of their pairs, one for each pair. -/
structure Flow where
  links : List Link := []
  deriving DecidableEq, Repr

namespace Flow

/-- The flow without calls. -/
def empty : Flow := {}

/-- Puts a link where its pair belongs. -/
def insertLink (link : Link) : List Link → List Link
  | [] => [link]
  | other :: rest =>
    if link.samePair other then { other with edge := min link.edge other.edge } :: rest
    else if link.before other then link :: other :: rest
    else other :: insertLink link rest

/-- Whether a flow has a pair. -/
def containsEdge (f : Flow) (caller callee : Nat) : Bool :=
  f.links.any fun link => link.caller == caller && link.callee == callee

/-- Adds an edge, given with its number. -/
def insert (f : Flow) (e : Edge × Nat) : Flow :=
  ⟨insertLink ⟨e.1.caller, e.1.callee, e.2⟩ f.links⟩

/-- Whether adding an edge adds a pair. -/
def isNew (f : Flow) (e : Edge) : Bool :=
  !f.containsEdge e.caller e.callee

/-- The calls of either flow. -/
def union (f g : Flow) : Flow :=
  ⟨g.links.foldl (fun links link => insertLink link links) f.links⟩

/-- The flow of a list of numbered edges. -/
def ofEdges (edges : List (Edge × Nat)) : Flow :=
  edges.foldl insert empty

/-- Puts a number where it belongs in an increasing list, unless it is there. -/
def insertNumber (v : Nat) : List Nat → List Nat
  | [] => [v]
  | w :: rest =>
    if v < w then v :: w :: rest else if v = w then w :: rest else w :: insertNumber v rest

/-- The nodes of a flow: the ends of its pairs, in increasing order. -/
def nodes (f : Flow) : List Nat :=
  f.links.foldl (fun ns link => insertNumber link.callee (insertNumber link.caller ns)) []

/-- Whether a node is an end of some pair. -/
def containsNode (f : Flow) (v : Nat) : Bool :=
  f.links.any fun link => link.caller == v || link.callee == v

/-- How many nodes a flow has. -/
def nodeCount (f : Flow) : Nat :=
  f.nodes.length

/-- How many pairs a flow has. -/
def edgeCount (f : Flow) : Nat :=
  f.links.length

/-- Whether a flow has no calls. -/
def isEmpty (f : Flow) : Bool :=
  f.links.isEmpty

end Flow

/-- The part of a graph that a filter passes and, if depths were measured, a depth map admits. An
interrupt is noticed as soon as there is a node to look at. -/
def selectWhole (g : Graph) (f : Filter) (depth : Option DepthMap) (interrupt : Interrupt) :
    ExceptT Interruption Logged Flow := do
  if 0 < g.nodes.size then
    if let some cause := interrupt.tripped? then throw cause
  let kept := g.numberedEdges.filter fun (e, _) => f.passes e
  let near := kept.filter fun (e, _) => depth.all (·.admits e)
  let flow := Flow.ofEdges near
  let dropped := tally (g.edges.toList.map f.verdict)
  Logged.note (.selected flow.edgeCount flow.nodeCount dropped (kept.length - near.length))
  return flow

end CallGraph
