import CallGraph.Document
import CallGraph.Program.Assembly
import CallGraph.Program.Sources
import CallGraph.Query

/-!
**Building call graphs from files.**

The arguments of a request name either graph documents, which are put together, or sources, which
are analysed.

* `importGraph` — the graph of some documents;
* `sourceGraph` — the graph that an analysis of sources gives;
* `Files.builder` — either, as the request asks.
-/

namespace CallGraph

namespace Builder

/-- Adds the graph of a document to a graph. -/
def importDocument (fs : Files) (r : BuildRequest) (g : Graph) (argument : String) :
    ExceptT BuildFailure Logged Graph := do
  let path := Program.pathOf r argument
  match fs.readText path with
  | .error fault => throw (.unreadableDocument path fault)
  | .ok text =>
    match Document.ofText text with
    | .error fault => throw (.badDocument path fault)
    | .ok document => ExceptT.lift (document.mergeInto g)

/-- The graph of the documents that a request names. -/
def importGraph (fs : Files) (r : BuildRequest) : ExceptT BuildFailure Logged Graph :=
  r.moduleArgs.foldlM (importDocument fs r) .empty

/-- The graph of some sources. -/
def analyse (r : BuildRequest) (sources : List Program.SourceFile) :
    ExceptT BuildFailure Logged Graph := do
  if sources.isEmpty then throw (.noSources r.moduleArgs)
  let ix := Program.Index.ofSources sources { tests := r.includeTests, names := r.tags }
  match ← ExceptT.lift (ix.callGraph? r.algorithm r.includeTests) with
  | some g => return g
  | none => throw .noEntryPoint

/-- The graph of the sources that a request names. -/
def sourceGraph (fs : Files) (r : BuildRequest) : ExceptT BuildFailure Logged Graph := do
  match Program.load fs r with
  | .error failure => throw (.loading failure)
  | .ok sources => analyse r sources

end Builder

/-- Builds graphs from the documents or sources in a file tree. -/
def Files.builder (fs : Files) : Query.Builder := fun r =>
  match r.algorithm with
  | .imported => Builder.importGraph fs r
  | _ => Builder.sourceGraph fs r

end CallGraph
