import CallGraph.Diagram.Layout

/-!
**Graphviz drawings.**

A selection as a Graphviz digraph, groups as clusters.
-/

namespace CallGraph.Diagram.Dot

/-- A character as it stands in a label. -/
def escapeChar (c : Char) : List Char :=
  if c = '\\' then ['\\', '\\']
  else if c = '"' then ['\\', '"']
  else if c = '\n' then ['\\', 'n']
  else [c]

/-- A text as it stands in a label. -/
def escapeLabel (text : String) : String :=
  Text.encode escapeChar text

/-- The label of a node: its name, and its place on a second line. -/
def label (n : Node) : String :=
  let (file, line) := placeText n
  n.name ++ "\n" ++ file ++ ":" ++ line.repr

/-- Colour and style of a node: the library grey, exported functions blue, the others light. -/
def look (n : Node) : String × String :=
  if n.isStd then ("#6c7086", "filled,dashed")
  else if n.exported then ("#89b4fa", "filled")
  else ("#cdd6f4", "filled")

/-- The blanks at the start of a line. -/
def pad (indent : Nat) : String :=
  String.ofList (List.replicate (4 * indent) ' ')

/-- The line that declares a node. -/
def nodeLine (g : Graph) (ns : Numbering) (indent v : Nat) : String :=
  match g.node? v with
  | none => ""
  | some n =>
    let (colour, style) := look n
    pad indent ++ "N" ++ (ns.number v).repr ++ " [label=\"" ++ escapeLabel (label n) ++
      "\", style=\"" ++ style ++ "\", fillcolor=\"" ++ colour ++ "\"];"

/-- The two lines that open a cluster. -/
def clusterLines (indent number : Nat) (title : String) : List String :=
  [pad indent ++ "subgraph cluster_" ++ number.repr ++ " \x7b",
    pad (indent + 1) ++ "label=\"" ++ escapeLabel title ++ "\";"]

mutual

/-- The lines of a section, and how many clusters have been opened by its end. -/
def sectionLines (g : Graph) (ns : Numbering) (indent clusters : Nat) :
    Section → List String × Nat
  | .node v => ([nodeLine g ns indent v], clusters)
  | .group title parts =>
    let (inner, opened) := allLines g ns (indent + 1) (clusters + 1) parts
    (clusterLines indent (clusters + 1) title ++ inner ++ [pad indent ++ "\x7d"], opened)

/-- The lines of some sections, and how many clusters have been opened by their end. -/
def allLines (g : Graph) (ns : Numbering) (indent clusters : Nat) :
    List Section → List String × Nat
  | [] => ([], clusters)
  | s :: rest =>
    let (first, opened) := sectionLines g ns indent clusters s
    let (others, total) := allLines g ns indent opened rest
    (first ++ others, total)

end

/-- The lines before the first node. -/
def opening : List String :=
  ["digraph callgraph \x7b", "    rankdir=LR;",
    "    node [shape=box, fontname=\"Helvetica\", fontsize=12];",
    "    edge [fontname=\"Helvetica\", fontsize=10];", ""]

/-- The line of a call. -/
def arcLine (arc : Nat × Nat) : String :=
  "    N" ++ arc.1.repr ++ " -> N" ++ arc.2.repr ++ ";"

/-- The lines of a drawing. -/
def lines (g : Graph) (f : Flow) (grouping : Grouping) : List String :=
  let sections := layout g f grouping
  let ns := numbering sections
  opening ++ (allLines g ns 1 0 sections).1 ++ [""] ++ (sortedArcs ns f).map arcLine ++ ["\x7d"]

/-- A selection as a drawing. -/
def render (g : Graph) (f : Flow) (grouping : Grouping) : String :=
  "\n".intercalate (lines g f grouping) ++ "\n"

end CallGraph.Diagram.Dot
