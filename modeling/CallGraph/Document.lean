import CallGraph.Flow

/-!
**Graph documents.**

The form in which call graphs are exchanged: nodes by id, calls between ids, and the ids of declared
entry points. Reading a document into a graph leaves out what makes no sense there and says so.

* `NodeRecord`, `EdgeRecord`, `Document` — the data of a document;
* `NodeRecord.ofNode`, `NodeRecord.toNode` — `toNode_ofNode`: a node comes back as it was;
* `Document.ofGraph`, `Document.ofSelection` — a graph, or a flow of it, as a document;
* `Document.mergeInto`, `Document.toGraph` — a document added to a graph, or made one.
-/

namespace CallGraph

/-- A node as a document gives it. -/
structure NodeRecord where
  id : String
  name : String
  modulePath : Option String := none
  moduleName : Option String := none
  file : Option String := none
  line : Option Nat := none
  isStd : Bool := false
  exported : Bool := false
  receiver : Option String := none
  synthetic : Bool := false
  deriving DecidableEq, Repr

/-- A call as a document gives it. -/
structure EdgeRecord where
  caller : String
  callee : String
  file : Option String := none
  line : Option Nat := none
  synthetic : Bool := false
  deriving DecidableEq, Repr

/-- A call graph in the form in which it is exchanged. -/
structure Document where
  nodes : List NodeRecord := []
  edges : List EdgeRecord := []
  roots : List String := []
  deriving DecidableEq, Repr

/-- The place that a file and a line name: none without a file, line 0 without a line. -/
def placeOf (file : Option String) (line : Option Nat) : Option Location :=
  file.map fun f => ⟨f, line.getD 0⟩

namespace NodeRecord

/-- A node as a record. -/
def ofNode (n : Node) : NodeRecord where
  id := n.id
  name := n.name
  modulePath := n.modulePath
  moduleName := n.moduleName
  file := n.location.map (·.file)
  line := n.location.map (·.line)
  isStd := n.isStd
  exported := n.exported
  receiver := n.receiver
  synthetic := n.synthetic

/-- The node that a record describes. -/
def toNode (r : NodeRecord) : Node where
  id := r.id
  name := r.name
  modulePath := r.modulePath
  moduleName := r.moduleName
  location := placeOf r.file r.line
  isStd := r.isStd
  exported := r.exported
  receiver := r.receiver
  synthetic := r.synthetic

/-- A node comes back from its record as it was. -/
theorem toNode_ofNode (n : Node) : (ofNode n).toNode = n := by
  cases n with
  | mk id name modulePath moduleName location isStd exported receiver synthetic =>
    cases location <;> rfl

end NodeRecord

namespace EdgeRecord

/-- A call between two ids as a record. -/
def ofCall (caller callee : String) (call : Call) : EdgeRecord where
  caller := caller
  callee := callee
  file := call.site.map (·.file)
  line := call.site.map (·.line)
  synthetic := call.synthetic

/-- What a record says of its call besides the endpoints. -/
def toCall (r : EdgeRecord) : Call where
  site := placeOf r.file r.line
  synthetic := r.synthetic

/-- A call comes back from its record as it was. -/
theorem toCall_ofCall (caller callee : String) (call : Call) :
    (ofCall caller callee call).toCall = call := by
  cases call with
  | mk site synthetic => cases site <;> rfl

/-- An edge of a graph as a record. -/
def ofEdge (g : Graph) (e : Edge) : EdgeRecord :=
  ofCall (g.idOf e.caller) (g.idOf e.callee) e.call

end EdgeRecord

namespace Document

/-- All of a graph: nodes in order, calls by caller and then in order, declared roots. -/
def ofGraph (g : Graph) : Document where
  nodes := g.nodes.toList.map NodeRecord.ofNode
  edges := g.nodeNumbers.flatMap fun v => (g.outgoing v).map fun (e, _) => EdgeRecord.ofEdge g e
  roots := g.roots.map g.idOf

/-- The order of calls in the document of a selection: by the ids of caller and callee. -/
def edgeLE (a b : EdgeRecord) : Bool :=
  ((compare a.caller b.caller).then (compare a.callee b.callee)).isLE

/-- The nodes and calls of a flow, ordered by their ids. -/
def ofSelection (g : Graph) (f : Flow) : Document where
  nodes := ((f.nodes.filterMap g.node?).map NodeRecord.ofNode).mergeSort
    fun a b => (compare a.id b.id).isLE
  edges := ((f.links.filterMap fun link => g.edges[link.edge]?).map (EdgeRecord.ofEdge g)).mergeSort
    edgeLE

/-- Adds nodes to a graph. -/
def addNodes (g : Graph) : List NodeRecord → Logged Graph
  | [] => pure g
  | r :: rest => do
    let (g, _) ← g.addNode r.toNode
    addNodes g rest

/-- Adds calls to a graph. -/
def addEdges (g : Graph) : List EdgeRecord → Logged Graph
  | [] => pure g
  | r :: rest => do
    let g ← g.connect r.caller r.callee r.toCall
    addEdges g rest

/-- Declares roots of a graph. -/
def addRoots (g : Graph) : List String → Logged Graph
  | [] => pure g
  | id :: rest =>
    match g.find? id with
    | some v => addRoots (g.declareRoot v) rest
    | none => do
      Logged.note (.unknownRoot id)
      addRoots g rest

/-- Adds a document to a graph: nodes whose ids are new, calls and roots between known ids. -/
def mergeInto (d : Document) (g : Graph) : Logged Graph := do
  let g ← addNodes g d.nodes
  let g ← addEdges g d.edges
  addRoots g d.roots

/-- The graph of a document. -/
def toGraph (d : Document) : Logged Graph :=
  d.mergeInto Graph.empty

end Document

end CallGraph
