import CallGraph.Graph

/-!
**Which calls belong to the answer.**

A filter looks at one call at a time. Its stages are tried in a fixed order, and the first that
rejects the call decides.

* `FilterConfig` — what to keep; by default everything that is not synthetic;
* `resolveFocus` — the module that a focus text names;
* `Filter` — a configuration bound to a graph, with the focus looked up;
* `Filter.verdict` — the verdict on a call.
-/

namespace CallGraph

/-- Which calls to keep. An empty list switches its stage off. -/
structure FilterConfig where
  excludeStd : Bool := false
  excludeUnexported : Bool := false
  /-- Beginnings of module paths. -/
  includePrefixes : List String := []
  /-- Parts of module paths. -/
  limitKeywords : List String := []
  /-- Parts of module paths that are dropped wherever they occur. -/
  ignore : List String := []
  /-- A module path, or the name a module is shown by. -/
  focus : Option String := none
  /-- How many endpoints have to satisfy the two lists of wanted modules. -/
  endpointMatch : EndpointMatch := .both
  deriving DecidableEq, Repr

/-- The module a focus text names: the module of that path, else the first module shown by that
name. -/
def resolveFocus (g : Graph) (text : String) : Option String :=
  let wanted := Text.trim text
  if wanted = "" then none
  else
    let byPath := g.nodes.toList.find? fun n => n.modulePath == some wanted
    let byName := g.nodes.toList.find? fun n => n.moduleName == some wanted && n.modulePath.isSome
    (byPath.or byName).bind (·.modulePath)

/-- A filter bound to one graph. -/
structure Filter where
  graph : Graph
  config : FilterConfig
  /-- The module in focus, if there is one. -/
  focus : Option String

namespace Filter

/-- Binds a configuration to a graph. A focus that names no module of the graph is ignored. -/
def bind (g : Graph) (config : FilterConfig) : Logged Filter :=
  match config.focus with
  | none => ⟨⟨g, config, none⟩, []⟩
  | some text =>
    match resolveFocus g text with
    | some module => ⟨⟨g, config, some module⟩, []⟩
    | none => ⟨⟨g, config, none⟩, [.unknownFocus text]⟩

/-- Whether a node belongs to the platform's library. -/
def isStdNode (n : Node) : Bool :=
  n.isStd || n.modulePath.any ModulePath.isStandard

/-- Whether a module path contains one of the parts. -/
def mentions (parts : List String) (path : String) : Bool :=
  parts.any (Text.contains path)

/-- Whether a module path begins with one of the beginnings. -/
def begins (beginnings : List String) (path : String) : Bool :=
  beginnings.any (Text.startsWith path)

/-- Whether the node at one end of an edge lies in a module. -/
def liesIn (f : Filter) (module : String) (v : Nat) : Bool :=
  ((f.graph.node? v).bind (·.modulePath)) == some module

/-- Whether a node is called from inside a module. -/
def calledFrom (f : Filter) (module : String) (v : Nat) : Bool :=
  (f.graph.incoming v).any fun (e, _) =>
    !f.graph.isSyntheticEdge e && f.liesIn module e.caller

/-- Whether a node calls into a module. -/
def callsInto (f : Filter) (module : String) (v : Nat) : Bool :=
  (f.graph.outgoing v).any fun (e, _) =>
    !f.graph.isSyntheticEdge e && f.liesIn module e.callee

/-- Whether a call touches the module in focus, or leads from a node called from there to one that
calls back into it. -/
def inFocus (f : Filter) (module : String) (e : Edge) : Bool :=
  f.liesIn module e.caller || f.liesIn module e.callee ||
    (f.calledFrom module e.caller && f.callsInto module e.callee)

/-- The verdict on a call between two nodes with modules. -/
def judge (f : Filter) (e : Edge) (caller callee : Node) (callerPath calleePath : String) :
    Verdict :=
  let c := f.config
  let matched (test : String → Bool) := c.endpointMatch.combine (test callerPath) (test calleePath)
  if c.excludeStd && (isStdNode caller || isStdNode callee || ModulePath.isInternal callerPath ||
      ModulePath.isInternal calleePath) then some .standardLibrary
  else if c.excludeUnexported && !(caller.exported && callee.exported) then some .unexported
  else if !c.includePrefixes.isEmpty && !matched (begins c.includePrefixes) then some .notIncluded
  else if !c.limitKeywords.isEmpty && !matched (mentions c.limitKeywords) then some .outsideLimit
  else if mentions c.ignore callerPath || mentions c.ignore calleePath then some .ignored
  else if f.focus.any fun module => !f.inFocus module e then some .outOfFocus
  else none

/-- The verdict on a call. -/
def verdict (f : Filter) (e : Edge) : Verdict :=
  match f.graph.node? e.caller, f.graph.node? e.callee with
  | some caller, some callee =>
    if f.graph.isSyntheticEdge e then some .synthetic
    else
      match caller.modulePath, callee.modulePath with
      | some callerPath, some calleePath => f.judge e caller callee callerPath calleePath
      | _, _ => some .synthetic
  | _, _ => some .dangling

/-- Whether a call is kept. -/
def passes (f : Filter) (e : Edge) : Bool :=
  (f.verdict e).isNone

/-- The edges that are kept, with their numbers, in order. -/
def passing (f : Filter) : List (Edge × Nat) :=
  f.graph.numberedEdges.filter fun (e, _) => f.passes e

/-- The edges that are kept are the edges of the graph that the filter passes. -/
theorem mem_passing {f : Filter} {e : Edge} {i : Nat} :
    (e, i) ∈ f.passing ↔ f.graph.edges[i]? = some e ∧ f.passes e = true := by
  simp [passing, Graph.numberedEdges, List.mem_zipIdx_iff_getElem?, ← Array.getElem?_toList]

end Filter

end CallGraph
