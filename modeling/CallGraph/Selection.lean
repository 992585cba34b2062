import CallGraph.Diagram.Dot
import CallGraph.Diagram.Mermaid
import CallGraph.Document.Text

/-!
**Selections and their texts.**

The answer to a query is a flow together with the graph that its numbers refer to, written in one of
the formats.
-/

namespace CallGraph

/-- A flow together with the graph that its numbers refer to. -/
structure Selection where
  graph : Graph
  flow : Flow

/-- A flow written in a format. Grouping does not apply to documents. -/
def renderFlow (g : Graph) (f : Flow) (format : Format) (grouping : Grouping) : String :=
  match format with
  | .mermaid => Diagram.Mermaid.render g f grouping
  | .dot => Diagram.Dot.render g f grouping
  | .json => (Document.ofSelection g f).toText

end CallGraph
