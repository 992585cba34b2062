/-!
**Compact ids.**

Inside a drawing a node goes by a short id: a letter and the place at which the node first came up.
-/

namespace CallGraph.Diagram

/-- The nodes numbered so far, in the order in which they came up. -/
structure Numbering where
  order : List Nat := []

namespace Numbering

/-- The number of a node, counted from one, if it has come up. -/
def number? (ns : Numbering) (v : Nat) : Option Nat :=
  (ns.order.findIdx? (· == v)).map (· + 1)

/-- The numbering in which a node has come up. -/
def visit (ns : Numbering) (v : Nat) : Numbering :=
  if v ∈ ns.order then ns else ⟨ns.order ++ [v]⟩

/-- The number of a node, which is the next free one if it is new. -/
def number (ns : Numbering) (v : Nat) : Nat :=
  (ns.number? v).getD (ns.order.length + 1)

/-- The id texts of nodes that come up one after the other. -/
def idTexts (letters : String) (ns : Numbering) : List Nat → List String
  | [] => []
  | v :: rest => (letters ++ (ns.number v).repr) :: idTexts letters (ns.visit v) rest

end Numbering

end CallGraph.Diagram
