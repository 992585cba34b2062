import CallGraph.Graph
import CallGraph.Hops
import CallGraph.Interrupt

/-!
**Distance from the entry points.**

In a drawing of the whole program a call shows only if both its ends lie close enough to the entry
points. Hops are counted along all edges of the graph.
-/

namespace CallGraph

/-- How far nodes lie from the roots, up to a bound. -/
structure DepthMap where
  distances : Distances
  bound : Nat

namespace DepthMap

/-- Measures the distance of every node from the roots. An interrupt is noticed as soon as there is
a node to start from. -/
def measure (g : Graph) (roots : List Nat) (bound : Nat) (interrupt : Interrupt) :
    ExceptT Interruption Logged DepthMap := do
  if roots.any g.contains then
    if let some cause := interrupt.tripped? then throw cause
  let distances := (search g.nodes.size g.calleesOf (some bound) roots).distances
  Logged.note (.measured bound distances.reached g.nodes.size roots.length)
  return ⟨distances, bound⟩

/-- The distance of a node, if it is within reach. -/
def depth (m : DepthMap) (v : Nat) : Option Nat :=
  m.distances.get v

/-- Whether both ends of a call lie within the bound. -/
def admits (m : DepthMap) (e : Edge) : Bool :=
  (m.depth e.caller).any (· ≤ m.bound) && (m.depth e.callee).any (· ≤ m.bound)

end DepthMap

end CallGraph
