import CallGraph.EntryPoint
import CallGraph.Graph.Strip
import CallGraph.Request
import CallGraph.Selection
import CallGraph.Symbol
import CallGraph.Walk

/-!
**Queries.**

From a request to its answer: the request is checked, a graph is built, part of it is selected, and
the selection is written down.

* `selectSymbol` — the walk from the symbol that a plan names;
* `selectProgram` — the part of the whole program within reach of its entry points;
* `run` — the answer to a request, given a way to build graphs.
-/

namespace CallGraph

/-- The answer to a query. -/
structure Answer where
  format : Format
  body : String
  nodeCount : Nat
  edgeCount : Nat
  deriving DecidableEq, Repr

namespace Query

/-- A stage of a query: it makes notes, and may end the query. -/
abbrev Stage := ExceptT QueryError Logged

/-- A stage that only an interrupt can end. -/
def interruptible {α : Type} (stage : ExceptT Interruption Logged α) : Stage α :=
  ExceptT.adapt QueryError.interrupted stage

/-- The error for a walk without an answer. -/
def ofWalkFailure : Walk.Failure → QueryError
  | .interrupted cause => .interrupted cause
  | .noSuchStart => .noSuchStart

/-- The walk from the symbol that a reference names. -/
def selectSymbol (g : Graph) (plan : Plan) (reference : String) (interrupt : Interrupt) :
    Stage Selection := do
  match Symbol.resolve g reference with
  | .error wanted => throw (.symbolNotFound wanted)
  | .ok start =>
    let filter ← Filter.bind g plan.filter
    let flow ← ExceptT.adapt ofWalkFailure
      (Walk.run filter plan.direction plan.maxDepth start interrupt)
    return ⟨g, flow⟩

/-- The part of a program, without synthetic nodes, that its filter keeps within reach of the entry
points. -/
def selectProgram (g : Graph) (plan : Plan) (interrupt : Interrupt) : Stage Selection := do
  let g := g.withoutSynthetic
  let filter ← Filter.bind g plan.filter
  let depth ←
    if 0 < plan.maxDepth then
      some <$> interruptible
        (DepthMap.measure g (g.entryPoints.map (·.1)) plan.maxDepth interrupt)
    else pure none
  let flow ← interruptible (selectWhole g filter depth interrupt)
  return ⟨g, flow⟩

/-- What a plan selects from a graph. -/
def select (g : Graph) (plan : Plan) (interrupt : Interrupt) : Stage Selection :=
  match plan.symbol with
  | some reference => selectSymbol g plan reference interrupt
  | none => selectProgram g plan interrupt

/-- The interrupt that holds while a plan runs: a time limit of the plan takes the place of the
caller's deadline. -/
def effectiveInterrupt (plan : Plan) (interrupt : Interrupt) : Interrupt :=
  match plan.timeoutMs with
  | some milliseconds => interrupt.withTimeout milliseconds
  | none => interrupt

/-- A way to build call graphs. -/
abbrev Builder := BuildRequest → ExceptT BuildFailure Logged Graph

/-- Carries out a plan. -/
def execute (builder : Builder) (plan : Plan) (interrupt : Interrupt) : Stage Answer := do
  let interrupt := effectiveInterrupt plan interrupt
  let g ← ExceptT.adapt QueryError.construction (builder plan.build)
  Logged.note (.built plan.build.algorithm g.nodes.size g.edges.size)
  let selection ← select g plan interrupt
  return {
    format := plan.format
    body := renderFlow selection.graph selection.flow plan.format plan.group
    nodeCount := selection.flow.nodeCount
    edgeCount := selection.flow.edgeCount }

/-- The answer to a request. -/
def run (builder : Builder) (request : Request) (interrupt : Interrupt) : Stage Answer := do
  let plan ← ExceptT.mk (pure request.validate)
  execute builder plan interrupt

end Query

end CallGraph
