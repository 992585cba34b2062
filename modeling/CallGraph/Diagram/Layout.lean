import CallGraph.Diagram.Numbering
import CallGraph.Flow

/-!
**The order of a drawing.**

In which order, and inside which groups, the nodes of a flow are declared. Nodes are ordered by
module, receiver, name and id, groups by their keys, so the order in which a graph was built does
not show.

* `sortedNodes` — the nodes of a flow in the order of a drawing;
* `groupBy` — the nodes with equal keys together, keys in increasing order;
* `layout` — the sections of a drawing;
* `sortedArcs` — the calls as pairs of compact numbers.
-/

namespace CallGraph.Diagram

/-- A part of a drawing: a node, or a titled group of parts. -/
inductive Section where
  | node (v : Nat)
  | group (title : String) (parts : List Section)

/-- The order of texts: by their characters. -/
def textOrder (a b : String) : Ordering :=
  compare a b

/-- The order of texts that may be missing: a missing one comes first. -/
def optionOrder : Option String → Option String → Ordering
  | none, none => .eq
  | none, some _ => .lt
  | some _, none => .gt
  | some a, some b => textOrder a b

/-- The order of nodes in a drawing. -/
def nodeOrder (a b : Node) : Ordering :=
  (optionOrder a.modulePath b.modulePath).then
    ((optionOrder a.receiver b.receiver).then
      ((textOrder a.name b.name).then (textOrder a.id b.id)))

/-- The nodes of a flow with their records, in the order of a drawing. -/
def sortedNodes (g : Graph) (f : Flow) : List (Nat × Node) :=
  (f.nodes.filterMap fun v => (g.node? v).map fun n => (v, n)).mergeSort
    fun a b => (nodeOrder a.2 b.2).isLE

/-- The key of a node's module group. -/
def moduleKey (n : Node) : String :=
  n.modulePath.getD "?"

/-- The key of a node's type group: its receiver, or the one for free functions. -/
def typeKey (n : Node) : String :=
  match n.receiver with
  | some t => if t = "" then "function" else t
  | none => "function"

/-- Adds a member to the group with its key, which is made if it is missing. -/
def addToGroup {α : Type} (key : String) (a : α) : List (String × List α) → List (String × List α)
  | [] => [(key, [a])]
  | (other, members) :: rest =>
    match textOrder key other with
    | .eq => (other, members ++ [a]) :: rest
    | .lt => (key, [a]) :: (other, members) :: rest
    | .gt => (other, members) :: addToGroup key a rest

/-- Members grouped by key, keys in increasing order, members in the order they had. -/
def groupBy {α : Type} (key : α → String) (members : List α) : List (String × List α) :=
  members.foldl (fun groups a => addToGroup (key a) a groups) []

/-- Nodes without a group. -/
def plain (members : List (Nat × Node)) : List Section :=
  members.map fun (v, _) => .node v

/-- One group for each key, with what `inner` makes of its members. -/
def grouped (tag : String) (key : Node → String) (inner : List (Nat × Node) → List Section)
    (members : List (Nat × Node)) : List Section :=
  (groupBy (fun m => key m.2) members).map fun (k, ms) => .group (tag ++ ":" ++ k) (inner ms)

/-- The sections of a drawing. -/
def layout (g : Graph) (f : Flow) (grouping : Grouping) : List Section :=
  let members := sortedNodes g f
  match grouping with
  | .flat => plain members
  | .byModule => grouped "pkg" moduleKey plain members
  | .byType => grouped "type" typeKey plain members
  | .byModuleAndType => grouped "pkg" moduleKey (grouped "type" typeKey plain) members

mutual

/-- The nodes of a section in the order in which they come up. -/
def Section.nodes : Section → List Nat
  | .node v => [v]
  | .group _ parts => sectionNodes parts

/-- The nodes of some sections in the order in which they come up. -/
def sectionNodes : List Section → List Nat
  | [] => []
  | s :: rest => s.nodes ++ sectionNodes rest

end

/-- The numbering of a drawing: nodes are numbered as their declarations come up. -/
def numbering (sections : List Section) : Numbering :=
  (sectionNodes sections).foldl Numbering.visit {}

/-- The order of pairs of numbers. -/
def arcLE (a b : Nat × Nat) : Bool :=
  a.1 < b.1 || (a.1 == b.1 && a.2 ≤ b.2)

/-- The calls of a flow as pairs of compact numbers, in increasing order. -/
def sortedArcs (ns : Numbering) (f : Flow) : List (Nat × Nat) :=
  (f.links.map fun link => (ns.number link.caller, ns.number link.callee)).mergeSort arcLE

/-- What a drawing shows of a node's place: the file without directories, and the line. -/
def placeText (n : Node) : String × Nat :=
  match n.location with
  | some l => (l.fileName, l.line)
  | none => ("?", 0)

end CallGraph.Diagram
