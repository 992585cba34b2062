import CallGraph.Graph
import CallGraph.Program.Reach

/-!
**The call graph of a program.**

First the nodes of the program's own definitions, in order; then the calls of each, in order, with
nodes for whatever else they refer to as it turns up.

* `nodeOf` — the node that a target gets;
* `assemble` — the graph of some definitions;
* `callGraph` — the graph that an analysis gives, if it has something to start from.
-/

namespace CallGraph.Program

open Source (Definition)

/-- The node of a definition. -/
def definitionNode (d : Definition) : Node :=
  { (({ id := d.id, name := d.name : Node }.inModule d.modulePath).locatedAt d.file d.line) with
    exported := d.exported
    receiver := d.receiver }

/-- The node of a function that is defined elsewhere. -/
def foreignNode (f : Foreign) (isStd : Bool) : Node :=
  { ({ id := f.id, name := f.name : Node }.inModule f.modulePath) with
    isStd := isStd
    exported := true
    receiver := f.receiver }

/-- The node of a reference that matches nothing. -/
def unresolvedNode (text : String) : Node where
  id := "?" ++ text
  name := Text.lastWord (fun c => c == ':' || c == '.') text

namespace Index

/-- The node that a target gets. -/
def nodeOf (ix : Index) : Target → Option Node
  | .definition i => (ix.definition? i).map definitionNode
  | .standard f => some (foreignNode f true)
  | .external f => some (foreignNode f false)
  | .unresolved text => some (unresolvedNode text)

/-- Adds a call from a numbered node to a target. -/
def addCall (ix : Index) (caller : Nat) (site : Location) (g : Graph) (t : Target) : Graph :=
  match ix.nodeOf t with
  | none => g
  | some n =>
    let (g, callee) := g.ensure n
    g.addEdge ⟨caller, callee, { site := some site }⟩

/-- Adds the calls of a definition. -/
def addCalls (ix : Index) (algorithm : Algorithm) (made : Option (List String)) (g : Graph)
    (d : Definition) : Graph :=
  match g.find? d.id with
  | none => g
  | some caller =>
    d.sites.foldl (fun g site =>
      (ix.resolve algorithm made d site).foldl (ix.addCall caller ⟨d.file, site.line⟩) g) g

/-- Adds nodes for some definitions. -/
def addDefinitions : Graph → List Definition → Logged Graph
  | g, [] => return g
  | g, d :: rest => do
    let (g, _) ← g.addNode (definitionNode d)
    addDefinitions g rest

/-- The graph of some definitions and their calls. -/
def assemble (ix : Index) (algorithm : Algorithm) (made : Option (List String))
    (numbers : List Nat) : Logged Graph := do
  let chosen := numbers.filterMap ix.definition?
  let g ← addDefinitions .empty chosen
  return chosen.foldl (ix.addCalls algorithm made) g

/-- A graph with the given definitions declared as its roots. -/
def declareRoots (ix : Index) (roots : List Nat) (g : Graph) : Graph :=
  (roots.filterMap fun i => (ix.definition? i).bind fun d => g.find? d.id).foldl Graph.declareRoot g

/-- The graph of what can be reached from the entry points; none if there are no such. -/
def reachableGraph? (ix : Index) (tests : Bool) : Logged (Option Graph) := do
  let roots := ix.entryPoints tests
  if roots.isEmpty then return none
  let found := ix.reachable roots
  let g ← ix.assemble .rta (some found.types) (ix.inOrder found)
  return some (ix.declareRoots roots g)

/-- The graph that an analysis gives; none if it has nothing to start from. -/
def callGraph? (ix : Index) (algorithm : Algorithm) (tests : Bool) : Logged (Option Graph) :=
  match algorithm with
  | .rta => ix.reachableGraph? tests
  | _ => some <$> ix.assemble algorithm none (List.range ix.definitions.size)

end Index

end CallGraph.Program
