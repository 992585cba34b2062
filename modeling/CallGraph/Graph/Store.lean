import CallGraph.Document
import CallGraph.Graph.Strip

/-!
**Call graphs as they are stored.**

A stored graph keeps more than its nodes, edges and roots: a table that gives the number of an id,
and at every node the numbers of the edges that leave and enter it, the newest first. Lists of edges
are sorted when they are asked for.

* `Slot`, `Store` — what is stored, `Store.graph` — the graph that it is the store of;
* `addNode`, `addEdge`, `connect`, `declareRoot`, `merge`, `strip` — the operations;
* `find?`, `outgoing`, `incoming`, `inDegree` — the questions;
* `Operation` — one operation with its arguments, done on stores and on graphs by `perform`.
-/

namespace CallGraph

/-- A stored node with the numbers of its edges, the newest first. -/
structure Slot where
  node : Node
  /-- The calls that the node makes. -/
  leaving : List Nat := []
  /-- The calls that the node receives. -/
  entering : List Nat := []

/-- A stored call graph. -/
structure Store where
  slots : Array Slot := #[]
  edges : Array Edge := #[]
  /-- The numbers of ids. -/
  table : List (String × Nat) := []
  roots : List Nat := []

namespace Store

/-- The graph that is stored. -/
def graph (s : Store) : Graph where
  nodes := s.slots.map (·.node)
  edges := s.edges
  roots := s.roots

/-! ### Questions -/

/-- The number of the node with an id. -/
def find? (s : Store) (id : String) : Option Nat :=
  s.table.lookup id

/-- Edges with their numbers, by increasing number. -/
def listed (s : Store) (numbers : List Nat) : List (Edge × Nat) :=
  numbers.mergeSort.filterMap fun i => s.edges[i]?.map fun e => (e, i)

/-- The numbers of the calls that a node makes. -/
def leaving (s : Store) (v : Nat) : List Nat :=
  (s.slots[v]?.map (·.leaving)).getD []

/-- The numbers of the calls that a node receives. -/
def entering (s : Store) (v : Nat) : List Nat :=
  (s.slots[v]?.map (·.entering)).getD []

/-- The calls a node makes, by increasing number. -/
def outgoing (s : Store) (v : Nat) : List (Edge × Nat) :=
  s.listed (s.leaving v)

/-- The calls a node receives, by increasing number. -/
def incoming (s : Store) (v : Nat) : List (Edge × Nat) :=
  s.listed (s.entering v)

/-- How many calls a node receives. -/
def inDegree (s : Store) (v : Nat) : Nat :=
  (s.entering v).length

/-! ### Operations -/

/-- Adds a node unless its id is known, and gives its number. -/
def addNode (s : Store) (n : Node) : Store × Nat :=
  match s.find? n.id with
  | some known => (s, known)
  | none =>
    ({ s with
      slots := s.slots.push { node := n }
      table := (n.id, s.slots.size) :: s.table }, s.slots.size)

/-- Puts an edge that is added at the nodes at its ends. -/
def attach (slots : Array Slot) (e : Edge) (i : Nat) : Array Slot :=
  (slots.modify e.caller fun slot => { slot with leaving := i :: slot.leaving }).modify e.callee
    fun slot => { slot with entering := i :: slot.entering }

/-- Adds an edge between two numbered nodes. -/
def addEdge (s : Store) (e : Edge) : Store :=
  { s with slots := attach s.slots e s.edges.size, edges := s.edges.push e }

/-- Adds an edge between the nodes with two ids, if there are such nodes. -/
def connect (s : Store) (caller callee : String) (call : Call) : Store :=
  match s.find? caller, s.find? callee with
  | some u, some v => s.addEdge ⟨u, v, call⟩
  | _, _ => s

/-- Declares a node to be an entry point. -/
def declareRoot (s : Store) (v : Nat) : Store :=
  if v ∈ s.roots then s else { s with roots := s.roots ++ [v] }

/-- Declares the node with an id to be an entry point, if there is one. -/
def declareId (s : Store) (id : String) : Store :=
  match s.find? id with
  | some v => s.declareRoot v
  | none => s

/-- Adds a document: nodes whose ids are new, calls and roots between known ids. -/
def merge (s : Store) (d : Document) : Store :=
  let s := d.nodes.foldl (fun s r => (s.addNode r.toNode).1) s
  let s := d.edges.foldl (fun s r => s.connect r.caller r.callee r.toCall) s
  d.roots.foldl declareId s

/-- Adds a node to the copy of a store unless it is synthetic, and notes the number that it gets. -/
def copyNode (copy : Store × List (Option Nat)) (n : Node) : Store × List (Option Nat) :=
  if n.synthetic then (copy.1, copy.2 ++ [none])
  else ((copy.1.addNode n).1, copy.2 ++ [some (copy.1.addNode n).2])

/-- The calls between nodes that get a number: one for each node at which a call ends up. -/
def bridges (s : Store) (number? : Nat → Option Nat) : List Edge :=
  (List.range s.slots.size).flatMap fun v =>
    match number? v with
    | none => []
    | some a => (s.outgoing v).flatMap fun (first, _) =>
      (s.graph.landings first.callee).filterMap fun w =>
        (number? w).map fun b => ⟨a, b, first.call⟩

/-- The store of the graph without its synthetic nodes: the other nodes, the calls between them, and
the roots among them are added to an empty store. -/
def strip (s : Store) : Store :=
  let copy := (s.slots.toList.map (·.node)).foldl copyNode ({}, [])
  let number? (v : Nat) : Option Nat := copy.2[v]?.join
  (s.roots.filterMap number?).foldl declareRoot ((s.bridges number?).foldl addEdge copy.1)

end Store

/-! ### Operations one after another -/

/-- An operation on a graph. -/
inductive Operation where
  | addNode (n : Node)
  | addEdge (e : Edge)
  | connect (caller callee : String) (call : Call)
  | declareRoot (v : Nat)
  | merge (d : Document)
  | strip

/-- Whether the numbers that an operation is given are those of nodes. -/
def Operation.Fits (g : Graph) : Operation → Prop
  | addEdge e => e.caller < g.nodes.size ∧ e.callee < g.nodes.size
  | declareRoot v => v < g.nodes.size
  | _ => True

instance (g : Graph) : (op : Operation) → Decidable (op.Fits g)
  | .addEdge e => inferInstanceAs (Decidable (e.caller < g.nodes.size ∧ e.callee < g.nodes.size))
  | .declareRoot v => inferInstanceAs (Decidable (v < g.nodes.size))
  | .addNode _ | .connect _ _ _ | .merge _ | .strip => isTrue trivial

/-- Does an operation on a graph. -/
def Graph.perform (g : Graph) : Operation → Graph
  | .addNode n => (g.addNode n).value.1
  | .addEdge e => g.addEdge e
  | .connect caller callee call => (g.connect caller callee call).value
  | .declareRoot v => g.declareRoot v
  | .merge d => (d.mergeInto g).value
  | .strip => g.withoutSynthetic

/-- Does an operation on a store. -/
def Store.perform (s : Store) : Operation → Store
  | .addNode n => (s.addNode n).1
  | .addEdge e => s.addEdge e
  | .connect caller callee call => s.connect caller callee call
  | .declareRoot v => s.declareRoot v
  | .merge d => s.merge d
  | .strip => s.strip

/-- Whether the numbers that operations are given, one after another, are those of nodes. -/
def Operation.AllFit (g : Graph) : List Operation → Prop
  | [] => True
  | op :: rest => op.Fits g ∧ AllFit (g.perform op) rest

instance Operation.decidableAllFit (g : Graph) : (ops : List Operation) → Decidable (AllFit g ops)
  | [] => isTrue trivial
  | op :: rest =>
    have := decidableAllFit (g.perform op) rest
    inferInstanceAs (Decidable (op.Fits g ∧ AllFit (g.perform op) rest))

end CallGraph
