import CallGraph.Diagram.Layout

/-!
**Mermaid flowcharts.**

A selection as a left-to-right Mermaid flowchart: one line for each node, two for each group, one
for each call.
-/

namespace CallGraph.Diagram.Mermaid

/-- A character as it stands in a label. -/
def escapeChar (c : Char) : List Char :=
  if c = '"' then "#quot;".toList
  else if c = '<' then "#lt;".toList
  else if c = '>' then "#gt;".toList
  else [c]

/-- A text as it stands in a label. -/
def escape (text : String) : String :=
  Text.encode escapeChar text

/-- The label of a node: its name, and its place on a second line. -/
def label (n : Node) : String :=
  let (file, line) := placeText n
  escape n.name ++ "<br/>" ++ escape file ++ ":" ++ line.repr

/-- The line that declares a node. -/
def nodeLine (g : Graph) (ns : Numbering) (v : Nat) : String :=
  "N" ++ (ns.number v).repr ++ "[\"" ++ ((g.node? v).map label).getD "" ++ "\"]"

/-- The line that opens a group. -/
def groupLine (number : Nat) (title : String) : String :=
  "subgraph G" ++ number.repr ++ "[\"" ++ escape title ++ "\"]"

mutual

/-- The lines of a section, and how many groups have been opened by its end. -/
def sectionLines (g : Graph) (ns : Numbering) (groups : Nat) : Section → List String × Nat
  | .node v => ([nodeLine g ns v], groups)
  | .group title parts =>
    let (inner, opened) := allLines g ns (groups + 1) parts
    (groupLine (groups + 1) title :: inner ++ ["end"], opened)

/-- The lines of some sections, and how many groups have been opened by their end. -/
def allLines (g : Graph) (ns : Numbering) (groups : Nat) : List Section → List String × Nat
  | [] => ([], groups)
  | s :: rest =>
    let (first, opened) := sectionLines g ns groups s
    let (others, total) := allLines g ns opened rest
    (first ++ others, total)

end

/-- The line of a call. -/
def arcLine (arc : Nat × Nat) : String :=
  "N" ++ arc.1.repr ++ " --> N" ++ arc.2.repr

/-- The lines of a flowchart. -/
def lines (g : Graph) (f : Flow) (grouping : Grouping) : List String :=
  let sections := layout g f grouping
  let ns := numbering sections
  "flowchart LR" :: (allLines g ns 0 sections).1 ++ (sortedArcs ns f).map arcLine

/-- A selection as a flowchart. -/
def render (g : Graph) (f : Flow) (grouping : Grouping) : String :=
  "\n".intercalate (lines g f grouping) ++ "\n"

end CallGraph.Diagram.Mermaid
