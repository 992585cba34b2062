import CallGraph.Proofs.Selection
import CallGraph.Proofs.Walk

/-!
**Callers are callees in the reversed graph.**

If every call of a graph is turned round, what was called calls. A filter does not notice: each of
its stages looks at both ends of a call in the same way, and a call that leads from a node called out
of the focus to one that calls back into it does so in both directions. So a walk along the calls of
the reversed graph goes the way of a walk against those of the graph.

* `Graph.reversed`, `Flow.reversed` — every call, or every pair, with its ends exchanged;
* `Filter.verdict_reversed` — the verdicts stay as they are;
* `Walk.along_reversed` — a walk goes the other way;
* `Walk.callers_eq_callees_reversed` — both, for filters that are bound to a graph and its reverse.
-/

namespace CallGraph

/-- A call with its ends exchanged. -/
def Edge.reversed (e : Edge) : Edge :=
  ⟨e.callee, e.caller, e.call⟩

/-! ### Reversed graphs -/

namespace Graph

/-- The graph with every call turned round. Each keeps its number. -/
def reversed (g : Graph) : Graph :=
  { g with edges := g.edges.map Edge.reversed }

variable {g : Graph} {v : Nat}

theorem numberedEdges_reversed (g : Graph) :
    g.reversed.numberedEdges = g.numberedEdges.map (Prod.map Edge.reversed id) := by
  show (g.edges.map Edge.reversed).toList.zipIdx = _
  rw [Array.toList_map, List.zipIdx_map]
  rfl

/-- The calls that a node makes were those that it receives, in the same order. -/
theorem outgoing_reversed : g.reversed.outgoing v = (g.incoming v).map (Prod.map Edge.reversed id) := by
  rw [outgoing, numberedEdges_reversed, List.filter_map]
  rfl

theorem incoming_reversed : g.reversed.incoming v = (g.outgoing v).map (Prod.map Edge.reversed id) := by
  rw [incoming, numberedEdges_reversed, List.filter_map]
  rfl

theorem isSyntheticEdge_reversed (e : Edge) :
    g.reversed.isSyntheticEdge e.reversed = g.isSyntheticEdge e := by
  have caller : g.reversed.node? e.reversed.caller = g.node? e.callee := rfl
  have callee : g.reversed.node? e.reversed.callee = g.node? e.caller := rfl
  have call : e.reversed.call = e.call := rfl
  unfold isSyntheticEdge
  rw [caller, callee, call]
  cases g.node? e.caller with
  | none => cases g.node? e.callee <;> rfl
  | some caller =>
    cases g.node? e.callee with
    | none => rfl
    | some callee =>
      dsimp only
      ac_rfl

end Graph

/-! ### Verdicts -/

theorem EndpointMatch.combine_comm (m : EndpointMatch) (a b : Bool) :
    m.combine a b = m.combine b a := by
  cases m with
  | both => exact Bool.and_comm a b
  | either => exact Bool.or_comm a b

namespace Filter

/-- The filter for the reversed graph. -/
def reversed (f : Filter) : Filter :=
  { f with graph := f.graph.reversed }

variable {f : Filter} {module : String} {v : Nat}

/-- A focus is looked up among the nodes, so it names the same module. -/
theorem value_bind_reversed (g : Graph) (config : FilterConfig) :
    (Filter.bind g.reversed config).value = (Filter.bind g config).value.reversed := by
  have same : resolveFocus g.reversed = resolveFocus g := rfl
  unfold Filter.bind
  rw [same]
  split
  · rfl
  · split <;> rfl

/-- What was called out of a module calls into it. -/
theorem callsInto_reversed : f.reversed.callsInto module v = f.calledFrom module v := by
  show (f.graph.reversed.outgoing v).any _ = _
  rw [Graph.outgoing_reversed, List.any_map, calledFrom]
  refine congrArg (f.graph.incoming v).any (funext fun e => ?_)
  exact congrArg (!· && _) (Graph.isSyntheticEdge_reversed e.1)

theorem calledFrom_reversed : f.reversed.calledFrom module v = f.callsInto module v := by
  show (f.graph.reversed.incoming v).any _ = _
  rw [Graph.incoming_reversed, List.any_map, callsInto]
  refine congrArg (f.graph.outgoing v).any (funext fun e => ?_)
  exact congrArg (!· && _) (Graph.isSyntheticEdge_reversed e.1)

/-- A bridge is one in both directions. -/
theorem inFocus_reversed (e : Edge) : f.reversed.inFocus module e.reversed = f.inFocus module e := by
  show (f.liesIn module e.callee || f.liesIn module e.caller ||
    (f.reversed.calledFrom module e.callee && f.reversed.callsInto module e.caller)) = _
  rw [calledFrom_reversed, callsInto_reversed, Bool.or_comm (f.liesIn module e.callee),
    Bool.and_comm]
  rfl

theorem judge_reversed (e : Edge) (caller callee : Node) (p q : String) :
    f.reversed.judge e.reversed callee caller q p = f.judge e caller callee p q := by
  have own : (isStdNode callee || isStdNode caller || ModulePath.isInternal q ||
      ModulePath.isInternal p) = (isStdNode caller || isStdNode callee || ModulePath.isInternal p ||
        ModulePath.isInternal q) := by ac_rfl
  have exported : (callee.exported && caller.exported) = (caller.exported && callee.exported) :=
    Bool.and_comm _ _
  have matched : ∀ test : String → Bool, f.config.endpointMatch.combine (test q) (test p) =
      f.config.endpointMatch.combine (test p) (test q) := fun test =>
    EndpointMatch.combine_comm _ _ _
  have spared : (mentions f.config.ignore q || mentions f.config.ignore p) =
      (mentions f.config.ignore p || mentions f.config.ignore q) := Bool.or_comm _ _
  have config : f.reversed.config = f.config := rfl
  have focus : f.reversed.focus = f.focus := rfl
  unfold judge
  simp only [config, focus, own, exported, matched, spared, inFocus_reversed]

/-- **The verdict on a call stays as it is.** -/
theorem verdict_reversed (e : Edge) : f.reversed.verdict e.reversed = f.verdict e := by
  have graph : f.reversed.graph = f.graph.reversed := rfl
  have caller : f.graph.reversed.node? e.reversed.caller = f.graph.node? e.callee := rfl
  have callee : f.graph.reversed.node? e.reversed.callee = f.graph.node? e.caller := rfl
  unfold verdict
  rw [graph, caller, callee, Graph.isSyntheticEdge_reversed]
  cases f.graph.node? e.caller with
  | none => cases f.graph.node? e.callee <;> rfl
  | some caller =>
    cases f.graph.node? e.callee with
    | none => rfl
    | some callee =>
      dsimp only
      cases caller.modulePath with
      | none => cases callee.modulePath <;> rfl
      | some p =>
        cases callee.modulePath with
        | none => rfl
        | some q => exact congrArg (ite _ _) (judge_reversed e caller callee p q)

theorem passes_reversed (e : Edge) : f.reversed.passes e.reversed = f.passes e :=
  congrArg Option.isNone (verdict_reversed e)

end Filter

/-! ### Reversed flows -/

/-- A pair with its ends exchanged. -/
def Link.reversed (link : Link) : Link :=
  ⟨link.callee, link.caller, link.edge⟩

namespace Flow

/-- The flow with the ends of every pair exchanged. The same edges stand for the pairs. -/
def reversed (f : Flow) : Flow :=
  ⟨f.links.foldl (fun links link => insertLink link.reversed links) []⟩

variable {f : Flow} {edges : Nat → Nat → Set Nat}

/-- It holds what the flow holds, under the exchanged pairs. -/
theorem Holds.reversed (holds : f.Holds edges) : f.reversed.Holds fun u v => edges v u := by
  have all := holds_foldl holds_empty (f.links.map Link.reversed)
  have links : (f.links.map Link.reversed).foldl (fun links link => insertLink link links) [] =
      f.reversed.links := List.foldl_map
  have turned : ∀ u v i, ⟨u, v, i⟩ ∈ f.links.map Link.reversed ↔ IsLeast (edges v u) i := by
    intro u v i
    rw [← holds.mem v u i, List.mem_map]
    constructor
    · rintro ⟨⟨a, b, j⟩, here, same⟩
      cases same
      exact here
    · exact fun here => ⟨_, here, rfl⟩
  refine ⟨links ▸ all.ordered, fun u v i => ?_⟩
  have numbers : {i | i ∈ (∅ : Set Nat) ∨ ⟨u, v, i⟩ ∈ f.links.map Link.reversed} =
      ∅ ∪ {i | IsLeast (edges v u) i} := by
    ext j
    exact or_congr_right (turned u v j)
  rw [← links]
  refine (all.mem u v i).trans ?_
  rw [numbers, isLeast_union_iff, Set.empty_union]

/-- **A flow and its reverse have the same edges**, under exchanged pairs. -/
theorem mem_links_reversed (holds : f.Holds edges) {u v i : Nat} :
    ⟨v, u, i⟩ ∈ f.reversed.links ↔ ⟨u, v, i⟩ ∈ f.links :=
  (holds.reversed.mem v u i).trans (holds.mem u v i).symm

/-- They have the same nodes. -/
theorem nodes_reversed (holds : f.Holds edges) : f.reversed.nodes = f.nodes := by
  refine List.Pairwise.eq_of_mem_iff (pairwise_nodes _) (pairwise_nodes _) fun v => ?_
  rw [mem_nodes, mem_nodes]
  constructor
  · rintro ⟨⟨a, b, i⟩, here, isEnd⟩
    exact ⟨⟨b, a, i⟩, (mem_links_reversed holds).1 here, isEnd.symm⟩
  · rintro ⟨⟨a, b, i⟩, here, isEnd⟩
    exact ⟨⟨b, a, i⟩, (mem_links_reversed holds).2 here, isEnd.symm⟩

/-- The flow of calls that have been turned round. -/
theorem ofEdges_reversed (es : List (Edge × Nat)) :
    ofEdges (es.map (Prod.map Edge.reversed id)) = (ofEdges es).reversed := by
  refine Holds.unique ((holds_ofEdges _).congr fun u v i => ?_) (holds_ofEdges es).reversed
  simp only [Set.mem_ofPred_eq, List.mem_map]
  constructor
  · rintro ⟨_, ⟨⟨e, _⟩, here, same⟩, caller, callee⟩
    cases same
    exact ⟨e, here, callee, caller⟩
  · rintro ⟨e, here, caller, callee⟩
    exact ⟨e.reversed, ⟨(e, i), here, rfl⟩, callee, caller⟩

end Flow

/-! ### Reversed walks -/

namespace Walk

variable {f : Filter} {forward : Bool} {bound start v : Nat} {interrupt : Interrupt}

/-- The calls of a node are those that it has in the other direction. -/
theorem callsAt_reversed :
    callsAt f.reversed forward v = (callsAt f (!forward) v).map (Prod.map Edge.reversed id) := by
  have passes : (fun e : Edge × Nat => f.reversed.passes e.1) ∘ Prod.map Edge.reversed id =
      fun e => f.passes e.1 := funext fun e => Filter.passes_reversed e.1
  unfold callsAt
  cases forward with
  | true =>
    show (f.graph.reversed.outgoing v).filter _ = ((f.graph.incoming v).filter _).map _
    rw [Graph.outgoing_reversed, List.filter_map, passes]
  | false =>
    show (f.graph.reversed.incoming v).filter _ = ((f.graph.outgoing v).filter _).map _
    rw [Graph.incoming_reversed, List.filter_map, passes]

theorem next_reversed : next f.reversed forward = next f (!forward) := by
  funext v
  unfold next
  rw [callsAt_reversed, List.map_map]
  refine List.map_congr_left fun e _ => ?_
  cases forward <;> rfl

/-- The search of a walk is the one in the other direction, step by step. -/
theorem searchFrom_reversed :
    searchFrom f.reversed forward bound start = searchFrom f (!forward) bound start := by
  unfold searchFrom
  rw [next_reversed]
  rfl

theorem found_reversed : found f.reversed forward bound start =
    (found f (!forward) bound start).map (Prod.map Edge.reversed id) := by
  unfold found
  rw [searchFrom_reversed, List.map_flatMap]
  exact List.flatMap_congr fun v _ => callsAt_reversed

/-- **A walk in the reversed graph goes the other way**: it ends alike, with the ends of every pair
exchanged. -/
theorem along_reversed : along f.reversed forward bound start interrupt =
    (along f (!forward) bound start interrupt).map Flow.reversed := by
  have known : f.reversed.graph.contains start = f.graph.contains start := rfl
  unfold along
  rw [found_reversed, Flow.ofEdges_reversed, known]
  split
  · cases interrupt.tripped? <;> rfl
  · rfl

/-- A walk that is not given up holds something. -/
theorem exists_holds {flow : Flow} (walked : along f forward bound start interrupt = .ok flow) :
    ∃ edges, flow.Holds edges := by
  unfold along at walked
  split at walked
  · split at walked
    · cases walked
    · cases walked
      exact ⟨_, Flow.holds_ofEdges _⟩
  · cases walked
    exact ⟨_, Flow.holds_empty⟩

/-- **Callers are callees in the reversed graph.** A filter that is bound to the reversed graph gives
every edge the verdict that it has in the graph, and a walk downstream in the reversed graph ends as
the walk upstream in the graph does: it finds the same pairs with their ends exchanged, by the same
edges, and the same nodes. -/
theorem callers_eq_callees_reversed (g : Graph) (config : FilterConfig) :
    let f := (Filter.bind g config).value
    let back := (Filter.bind g.reversed config).value
    (∀ i : Nat, (g.reversed.edges[i]?).map back.verdict = (g.edges[i]?).map f.verdict) ∧
    ∀ bound start interrupt,
      callees back bound start interrupt = (callers f bound start interrupt).map Flow.reversed ∧
      ∀ up, callers f bound start interrupt = .ok up →
        (∀ u v i, ⟨v, u, i⟩ ∈ up.reversed.links ↔ ⟨u, v, i⟩ ∈ up.links) ∧
        up.reversed.nodes = up.nodes := by
  intro f back
  have bound : back = f.reversed := Filter.value_bind_reversed g config
  rw [bound]
  refine ⟨fun i => ?_, fun bound start interrupt => ⟨along_reversed, fun up walked => ?_⟩⟩
  · show ((g.edges.map Edge.reversed)[i]?).map f.reversed.verdict = _
    rw [Array.getElem?_map, Option.map_map]
    exact congrArg (Option.map · _) (funext fun e => Filter.verdict_reversed e)
  · obtain ⟨edges, holds⟩ := exists_holds walked
    exact ⟨fun u v i => Flow.mem_links_reversed holds, Flow.nodes_reversed holds⟩

end Walk

end CallGraph
