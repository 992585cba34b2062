import CallGraph.Flow

/-!
**Flows as they are kept.**

A flow that is kept has two tables: its nodes, in increasing order, and the edge that stands for each
of its pairs, in the order of the pairs. An edge that is added and a flow that is united with another
one go different ways to the smallest number of a pair.

* `Flow.Table` — the two tables, `find?` looks a pair up;
* `Flow.Table.insert` — adds an edge and says whether its pair is new;
* `Flow.Table.union` — adds the nodes and the pairs of another flow;
* `Flow.Recipe` — how a flow is built from the edges of a graph, step by step.
-/

namespace CallGraph

namespace Flow

/-- The edge that stands for a pair among some links. -/
def edgeOf? (links : List Link) (caller callee : Nat) : Option Nat :=
  (links.find? fun link => link.caller == caller && link.callee == callee).map (·.edge)

/-- Puts a link where its pair belongs, in place of the one that the pair has. -/
def putLink (link : Link) : List Link → List Link
  | [] => [link]
  | other :: rest =>
    if link.samePair other then link :: rest
    else if link.before other then link :: other :: rest
    else other :: putLink link rest

/-- A flow as it is kept. -/
structure Table where
  nodes : List Nat := []
  links : List Link := []
  deriving DecidableEq, Repr

namespace Table

/-- The table of a flow. -/
def ofFlow (f : Flow) : Table :=
  ⟨f.nodes, f.links⟩

/-- The edge that stands for a pair. -/
def find? (t : Table) (caller callee : Nat) : Option Nat :=
  edgeOf? t.links caller callee

/-- Adds an edge, given with its number, and its ends. Says whether its pair is new; a pair that is
known only changes its edge if the new one has a smaller number. -/
def insert (t : Table) (e : Edge × Nat) : Table × Bool :=
  let link : Link := ⟨e.1.caller, e.1.callee, e.2⟩
  let nodes := insertNumber link.callee (insertNumber link.caller t.nodes)
  match t.find? link.caller link.callee with
  | none => (⟨nodes, putLink link t.links⟩, true)
  | some known =>
    if link.edge < known then (⟨nodes, putLink link t.links⟩, false) else (⟨nodes, t.links⟩, false)

/-- Adds a link of another flow: the pair gets its edge if it has none, and then gives up the one it
has if that of the link has a smaller number. -/
def mergeLink (links : List Link) (link : Link) : List Link :=
  let entry := match edgeOf? links link.caller link.callee with
    | none => (putLink link links, link.edge)
    | some known => (links, known)
  if link.edge < entry.2 then putLink link entry.1 else entry.1

/-- Adds the nodes of another flow, and then its pairs. -/
def union (t other : Table) : Table :=
  ⟨other.nodes.foldl (fun ns v => insertNumber v ns) t.nodes, other.links.foldl mergeLink t.links⟩

end Table

/-! ### Building a flow -/

/-- An edge of a graph with its number. -/
def numbered (g : Graph) (i : Fin g.edges.size) : Edge × Nat :=
  (g.edges[i], i)

/-- How a flow is built: edges of a graph are added to it, and flows that are built in the same way are
united with it, in any order. -/
inductive Recipe (g : Graph) where
  | empty
  | insert (r : Recipe g) (i : Fin g.edges.size)
  | union (r s : Recipe g)

namespace Recipe

variable {g : Graph}

/-- The flow that is built. -/
def flow : Recipe g → Flow
  | empty => .empty
  | insert r i => r.flow.insert (numbered g i)
  | union r s => r.flow.union s.flow

/-- The flow that is built, as it is kept. -/
def table : Recipe g → Table
  | empty => {}
  | insert r i => (r.table.insert (numbered g i)).1
  | union r s => r.table.union s.table

end Recipe

end Flow

end CallGraph
