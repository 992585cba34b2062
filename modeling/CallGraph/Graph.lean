import CallGraph.Log
import CallGraph.ModulePath
import CallGraph.Path

/-!
**Call graphs.**

The functions of a program and the calls between them. Nodes and edges are numbered in the order in
which they were added, and keep their numbers.

* `Node`, `Edge`, `Graph` — the data; `find?` looks a node up by its id;
* `addNode`, `addEdge`, `connect`, `declareRoot` — how a graph grows. An id is never reused: the
  first node that has it stays (`addNode_of_known`);
* `outgoing`, `incoming` — the numbered edges at a node, by increasing number.
-/

namespace CallGraph

/-- A place in a source text. -/
structure Location where
  file : String
  line : Nat
  deriving DecidableEq, Repr

namespace Location

/-- The file without its directories, as a drawing shows it. -/
def fileName (l : Location) : String :=
  (Path.fileName? l.file).getD l.file

end Location

/-- Something that can be called. -/
structure Node where
  /-- Tells this function from all others. -/
  id : String
  /-- The bare name. -/
  name : String
  /-- The module it is defined in, if that is known. -/
  modulePath : Option String := none
  /-- The name the module is shown by. -/
  moduleName : Option String := none
  location : Option Location := none
  /-- Part of the platform's library. -/
  isStd : Bool := false
  exported : Bool := false
  /-- The type a method belongs to. -/
  receiver : Option String := none
  /-- Put in by a builder, not present in the source. -/
  synthetic : Bool := false
  deriving DecidableEq, Repr

namespace Node

/-- The node in a module, which is shown by the last name of its path. -/
def inModule (n : Node) (path : String) : Node :=
  { n with modulePath := some path, moduleName := some (ModulePath.displayName path) }

/-- The node at a place. -/
def locatedAt (n : Node) (file : String) (line : Nat) : Node :=
  { n with location := some ⟨file, line⟩ }

end Node

/-- What is known of one call besides its endpoints. -/
structure Call where
  /-- Where the call is written. -/
  site : Option Location := none
  /-- No call in the source: a dispatch thunk or a hook of the runtime. -/
  synthetic : Bool := false
  deriving DecidableEq, Repr

/-- One call between two nodes, given by their numbers. -/
structure Edge where
  caller : Nat
  callee : Nat
  call : Call
  deriving DecidableEq, Repr

/-- A call graph. -/
structure Graph where
  nodes : Array Node := #[]
  edges : Array Edge := #[]
  /-- Nodes declared to be entry points, by number. -/
  roots : List Nat := []

namespace Graph

/-- The graph without nodes. -/
def empty : Graph := {}

/-- The node with a number. -/
def node? (g : Graph) (v : Nat) : Option Node :=
  g.nodes[v]?

/-- Whether a number belongs to a node. -/
def contains (g : Graph) (v : Nat) : Bool :=
  v < g.nodes.size

/-- The number of the node with an id. -/
def find? (g : Graph) (id : String) : Option Nat :=
  g.nodes.findIdx? (·.id == id)

/-- The id of a node. -/
def idOf (g : Graph) (v : Nat) : String :=
  ((g.node? v).map (·.id)).getD ""

/-! ### Growing a graph -/

/-- Adds a node unless its id is known, and gives its number. -/
def addNode (g : Graph) (n : Node) : Logged (Graph × Nat) :=
  match g.find? n.id with
  | some known => ⟨(g, known), [.duplicateNode n.id]⟩
  | none => ⟨({ g with nodes := g.nodes.push n }, g.nodes.size), []⟩

/-- Adds a node unless its id is known, and gives its number, without a note. -/
def ensure (g : Graph) (n : Node) : Graph × Nat :=
  (g.addNode n).value

/-- Adds an edge between two numbered nodes. -/
def addEdge (g : Graph) (e : Edge) : Graph :=
  { g with edges := g.edges.push e }

/-- Adds an edge between the nodes with two ids, if there are such nodes. -/
def connect (g : Graph) (caller callee : String) (call : Call) : Logged Graph :=
  match g.find? caller, g.find? callee with
  | some u, some v => ⟨g.addEdge ⟨u, v, call⟩, []⟩
  | _, _ => ⟨g, [.unknownEndpoint caller callee]⟩

/-- Declares a node to be an entry point. -/
def declareRoot (g : Graph) (v : Nat) : Graph :=
  if v ∈ g.roots then g else { g with roots := g.roots ++ [v] }

/-- A node whose id is known is not added. -/
theorem addNode_of_known {g : Graph} {n : Node} {v : Nat} (known : g.find? n.id = some v) :
    (g.addNode n).value = (g, v) := by
  simp [addNode, known]

/-- A node with a new id gets the next number. -/
theorem addNode_of_new {g : Graph} {n : Node} (unknown : g.find? n.id = none) :
    (g.addNode n).value = ({ g with nodes := g.nodes.push n }, g.nodes.size) := by
  simp [addNode, unknown]

/-! ### Edges -/

/-- The edges with their numbers, in order. -/
def numberedEdges (g : Graph) : List (Edge × Nat) :=
  g.edges.toList.zipIdx

/-- The calls a node makes, by increasing number. -/
def outgoing (g : Graph) (v : Nat) : List (Edge × Nat) :=
  g.numberedEdges.filter (·.1.caller == v)

/-- The calls a node receives, by increasing number. -/
def incoming (g : Graph) (v : Nat) : List (Edge × Nat) :=
  g.numberedEdges.filter (·.1.callee == v)

/-- The nodes that a node calls, once for every call. -/
def calleesOf (g : Graph) (v : Nat) : List Nat :=
  (g.outgoing v).map (·.1.callee)

/-- How many calls a node receives. -/
def inDegree (g : Graph) (v : Nat) : Nat :=
  (g.incoming v).length

/-- The numbers of all nodes, in order. -/
def nodeNumbers (g : Graph) : List Nat :=
  List.range g.nodes.size

/-- Whether a node was put in by a builder. -/
def isSynthetic (g : Graph) (v : Nat) : Bool :=
  (g.node? v).any (·.synthetic)

/-- Whether an edge counts as synthetic: by itself, or because an endpoint is synthetic, has no
module or is no node. -/
def isSyntheticEdge (g : Graph) (e : Edge) : Bool :=
  match g.node? e.caller, g.node? e.callee with
  | some caller, some callee =>
    e.call.synthetic || caller.synthetic || callee.synthetic || caller.modulePath.isNone ||
      callee.modulePath.isNone
  | _, _ => true

/-- A node makes no more calls than there are. -/
theorem length_calleesOf_le (g : Graph) (v : Nat) : (g.calleesOf v).length ≤ g.edges.size := by
  have fewer := List.length_filter_le (fun e : Edge × Nat => e.1.caller == v) g.numberedEdges
  rw [numberedEdges, List.length_zipIdx, Array.length_toList] at fewer
  rwa [calleesOf, List.length_map, outgoing]

/-- An edge is listed at its caller under its number. -/
theorem mem_outgoing {g : Graph} {v i : Nat} {e : Edge} :
    (e, i) ∈ g.outgoing v ↔ g.edges[i]? = some e ∧ e.caller = v := by
  simp [outgoing, numberedEdges, List.mem_zipIdx_iff_getElem?, ← Array.getElem?_toList]

/-- An edge is listed at its callee under its number. -/
theorem mem_incoming {g : Graph} {v i : Nat} {e : Edge} :
    (e, i) ∈ g.incoming v ↔ g.edges[i]? = some e ∧ e.callee = v := by
  simp [incoming, numberedEdges, List.mem_zipIdx_iff_getElem?, ← Array.getElem?_toList]

end Graph

end CallGraph
