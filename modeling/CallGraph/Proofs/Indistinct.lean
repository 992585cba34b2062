import CallGraph.Proofs.Alike
import CallGraph.Proofs.Stages

/-!
**Graphs that no query tells apart.**

A query looks at nodes, at which of them are joined, and at the first call between two nodes that its
filter passes. It does not look at how often a call is said, or at its number. So two graphs with the
same nodes and roots whose first calls are the same have the same answers, whatever is asked: what a
focus lets through, what a walk reaches and what is an entry point hang on the same things.

* `Indistinct` — such graphs, `Indistinct.mem_edges`, `Indistinct.entryPoints` — they have the same
  edges and entry points;
* `Filter.passes_congr` — filters with the same settings pass the same calls of both;
* `answerOf_congr` — selections of near calls that pass are the same text;
* `Query.value_select_congr` — the same plan has the same answer.
-/

namespace CallGraph

namespace Graph

/-- **Graphs that no query tells apart**: they have the same nodes and roots, and of the calls between
two nodes that pass a test, the same one comes first. -/
structure Indistinct (g g' : Graph) : Prop where
  nodes : g'.nodes = g.nodes
  roots : g'.roots = g.roots
  first : ∀ n m p, (∃ v, g.node? v = some n) → g'.firstCall n m p = g.firstCall n m p

variable {g g' : Graph}

/-- Nothing but the nodes is asked for a node. -/
theorem node?_congr (nodes : g'.nodes = g.nodes) : g'.node? = g.node? := by
  funext v
  rw [node?, nodes, node?]

theorem isSyntheticEdge_congr (nodes : g'.nodes = g.nodes) :
    g'.isSyntheticEdge = g.isSyntheticEdge := by
  funext e
  unfold isSyntheticEdge
  rw [node?_congr nodes]

namespace Indistinct

variable (same : Indistinct g g')

include same

/-- They say the same, under the same numbers. -/
theorem alike : Alike g g' := by
  have node := node?_congr same.nodes
  refine ⟨fun n => by rw [node], fun n m call => ?_, fun n => by rw [same.roots, node]⟩
  by_cases known : ∃ v, g.node? v = some n
  · -- A call is there if it is found when nothing else will do.
    have found : ∀ {g : Graph}, (m, call) ∈ g.callsFrom n ↔
        ∃ c, g.firstCall n m (fun c => decide (c = call)) = some c := by
      intro g
      rw [exists_firstCall_iff]
      simp
    rw [found, found, same.first n m _ known]
  · have absent : ∀ {g : Graph}, (¬ ∃ v, g.node? v = some n) → (m, call) ∉ g.callsFrom n := by
      intro g unknown called
      obtain ⟨e, _, caller, _⟩ := mem_callsFrom.1 called
      exact unknown ⟨_, caller⟩
    exact iff_of_false (absent known) (absent (node ▸ known))

variable (wf : g.WellFormed) (wf' : g'.WellFormed)

include wf wf'

/-- **They have the same edges**, however often. -/
theorem mem_edges {e : Edge} : e ∈ g'.edges ↔ e ∈ g.edges := by
  have carried : ∀ {g g' : Graph}, Alike g g' → g'.node? = g.node? → g.WellFormed → g'.WellFormed →
      e ∈ g.edges → e ∈ g'.edges := by
    intro g g' alike node wf wf' here
    obtain ⟨left, right⟩ := wf.ends e here
    obtain ⟨n, caller⟩ := exists_node? left
    obtain ⟨m, callee⟩ := exists_node? right
    have called := (alike.calls n m e.call).1 (mem_callsFrom.2 ⟨e, here, caller, callee, rfl⟩)
    obtain ⟨⟨u, v, call⟩, here', caller', callee', rfl⟩ := mem_callsFrom.1 called
    rw [← node] at caller callee
    obtain rfl := wf'.node?_inj caller' caller rfl
    obtain rfl := wf'.node?_inj callee' callee rfl
    exact here'
  have node := node?_congr same.nodes
  exact ⟨carried same.alike.symm node.symm wf' wf, carried same.alike node wf wf'⟩

theorem arc : g'.Arc = g.Arc := by
  funext u v
  unfold Arc
  rw [same.nodes]
  simp only [same.mem_edges wf wf']

/-- **They have the same entry points.** -/
theorem entryPoints : g'.entryPoints = g.entryPoints := by
  have numbers : g'.nodeNumbers = g.nodeNumbers := by rw [nodeNumbers, nodeNumbers, same.nodes]
  have named : g'.namedEntries = g.namedEntries := by
    rw [namedEntries, namedEntries, numbers, node?_congr same.nodes]
  -- A node that nobody calls is one that is the callee of no edge.
  have uncalled : ∀ {g : Graph} {v : Nat}, (g.inDegree v == 0) = true ↔
      ∀ e ∈ g.edges, e.callee ≠ v := by
    intro g v
    rw [beq_iff_eq, inDegree, List.length_eq_zero_iff, List.eq_nil_iff_forall_not_mem]
    constructor
    · intro none e here callee
      obtain ⟨i, listed⟩ := Array.mem_iff_getElem?.1 here
      exact none (e, i) (mem_incoming.2 ⟨listed, callee⟩)
    · rintro none ⟨e, i⟩ here
      obtain ⟨listed, callee⟩ := mem_incoming.1 here
      exact none e (Array.mem_of_getElem? listed) callee
  have orphans : g'.orphans = g.orphans := by
    rw [Graph.orphans, Graph.orphans, numbers]
    refine congrArg _ (List.filter_congr fun v _ => ?_)
    rw [Bool.eq_iff_iff, uncalled, uncalled]
    simp only [same.mem_edges wf wf']
  rw [Graph.entryPoints, Graph.entryPoints, named, orphans, same.roots]

end Indistinct

end Graph

/-! ### What a reference names -/

namespace Symbol

/-- Nothing but the nodes is asked for what a reference names. -/
theorem resolve_congr {g g' : Graph} (nodes : g'.nodes = g.nodes) (reference : String) :
    resolve g' reference = resolve g reference := by
  unfold resolve byRule
  rw [nodes]

/-- What a reference names is a node. -/
theorem contains_of_resolve {g : Graph} {reference : String} {start : Nat}
    (resolved : resolve g reference = .ok start) : g.contains start = true := by
  unfold resolve at resolved
  dsimp only at resolved
  split at resolved
  · cases resolved
  · split at resolved
    · rename_i v found
      obtain ⟨rule, _, here⟩ := List.exists_of_findSome?_eq_some found
      cases resolved
      exact decide_eq_true (lt_of_byRule here)
    · cases resolved

end Symbol

/-! ### What a filter passes -/

namespace Filter

open CallGraph.Graph

/-- An edge of a pair passes. -/
theorem passing_iff_exists {f : Filter} {u v : Nat} : f.Passing u v ↔
    ∃ e ∈ f.graph.edges, f.passes e = true ∧ e.caller = u ∧ e.callee = v := by
  rw [passing_iff]
  constructor
  · rintro ⟨e, i, here, ends⟩
    obtain ⟨listed, passes⟩ := mem_passing.1 here
    exact ⟨e, Array.mem_of_getElem? listed, passes, ends⟩
  · rintro ⟨e, here, passes, ends⟩
    obtain ⟨i, listed⟩ := Array.mem_iff_getElem?.1 here
    exact ⟨e, i, mem_passing.2 ⟨listed, passes⟩, ends⟩

theorem resolveFocus_congr {g g' : Graph} (nodes : g'.nodes = g.nodes) :
    resolveFocus g' = resolveFocus g := by
  funext text
  unfold resolveFocus
  rw [nodes]

variable {f f' : Filter} (same : Indistinct f.graph f'.graph) (wf : f.graph.WellFormed)
  (wf' : f'.graph.WellFormed) (config : f'.config = f.config) (focus : f'.focus = f.focus)

include same wf wf'

/-- A call lies in focus in both, also if it only leads out of the module and back. -/
theorem inFocus_indistinct : f'.inFocus = f.inFocus := by
  funext module e
  rw [Bool.eq_iff_iff, inFocus_iff wf', inFocus_iff wf]
  unfold Misses Bridges Artificial EndOf
  simp only [node?_congr same.nodes, same.mem_edges wf wf']

include config focus

/-- **Filters with the same settings pass the same calls.** -/
theorem passes_congr : f'.passes = f.passes := by
  funext e
  unfold passes verdict judge
  rw [node?_congr same.nodes, isSyntheticEdge_congr same.nodes, config, focus,
    inFocus_indistinct same wf wf']

theorem passing_congr : f'.Passing = f.Passing := by
  funext u v
  rw [eq_iff_iff, passing_iff_exists, passing_iff_exists, passes_congr same wf wf' config focus]
  simp only [same.mem_edges wf wf']

end Filter

/-! ### What is answered -/

namespace Query

open CallGraph.Graph CallGraph.Flow

variable {g g' : Graph} {plan : Plan} {interrupt : Interrupt}

/-- **Selections of near calls that pass are the same text.** -/
theorem answerOf_congr {f f' : Filter} (same : Indistinct f.graph f'.graph)
    (wf : f.graph.WellFormed) (wf' : f'.graph.WellFormed) (passes : f'.passes = f.passes)
    {near : Nat → Nat → Prop} {flow flow' : Flow}
    (holds : flow.Holds fun u v => {i | i ∈ f.numbersOf u v ∧ near u v})
    (holds' : flow'.Holds fun u v => {i | i ∈ f'.numbersOf u v ∧ near u v}) :
    answerOf plan ⟨f'.graph, flow'⟩ = answerOf plan ⟨f.graph, flow⟩ := by
  have shows : ∀ n m call, flow'.Shows f'.graph n m call ↔ flow.Shows f.graph n m call := by
    intro n m call
    rw [holds.shows_iff_passes wf, holds'.shows_iff_passes wf', passes, node?_congr same.nodes]
    refine exists₂_congr fun u v => and_congr_right fun ends => and_congr_right fun _ => ?_
    rw [same.first n m _ ⟨u, ends.1⟩]
  obtain ⟨counts, texts⟩ := renderFlow_congr holds'.of_numbersOf wf' holds.of_numbersOf wf shows
  simp only [answerOf, Answer.mk.injEq, true_and]
  exact ⟨texts plan.format plan.group, counts⟩

section

variable (same : Indistinct g g') (wf : g.WellFormed) (wf' : g'.WellFormed)

include same wf wf'

theorem passes_bind_congr (c : FilterConfig) :
    (Filter.bind g' c).value.passes = (Filter.bind g c).value.passes ∧
      (Filter.bind g' c).value.Passing = (Filter.bind g c).value.Passing := by
  have config : (Filter.bind g' c).value.config = (Filter.bind g c).value.config := by
    rw [Filter.config_bind, Filter.config_bind]
  have focus : (Filter.bind g' c).value.focus = (Filter.bind g c).value.focus := by
    rw [Filter.focus_bind, Filter.focus_bind, Filter.resolveFocus_congr same.nodes]
  have graph := Filter.graph_bind g c
  have graph' := Filter.graph_bind g' c
  rw [← graph] at wf
  rw [← graph'] at wf'
  have bound : Indistinct (Filter.bind g c).value.graph (Filter.bind g' c).value.graph := by
    rwa [graph, graph']
  exact ⟨Filter.passes_congr bound wf wf' config focus,
    Filter.passing_congr bound wf wf' config focus⟩

/-- Flows that hold the same near calls are answered alike. -/
theorem answerOf_bind_congr {near : Nat → Nat → Prop} {flow flow' : Flow}
    (holds : flow.Holds fun u v =>
      {i | i ∈ (Filter.bind g plan.filter).value.numbersOf u v ∧ near u v})
    (holds' : flow'.Holds fun u v =>
      {i | i ∈ (Filter.bind g' plan.filter).value.numbersOf u v ∧ near u v}) :
    answerOf plan ⟨g', flow'⟩ = answerOf plan ⟨g, flow⟩ := by
  have passes := (passes_bind_congr same wf wf' plan.filter).1
  have graph := Filter.graph_bind g plan.filter
  have graph' := Filter.graph_bind g' plan.filter
  rw [← graph, ← graph'] at same
  rw [← graph] at wf
  rw [← graph'] at wf'
  have answers : answerOf plan ⟨(Filter.bind g' plan.filter).value.graph, flow'⟩ =
      answerOf plan ⟨(Filter.bind g plan.filter).value.graph, flow⟩ :=
    answerOf_congr same wf wf' passes holds holds'
  rwa [graph, graph'] at answers

/-- A walk from a symbol is answered alike. -/
theorem value_selectSymbol_congr (reference : String) :
    (selectSymbol g' plan reference interrupt).run.value.map (answerOf plan) =
      (selectSymbol g plan reference interrupt).run.value.map (answerOf plan) := by
  have names := Symbol.resolve_congr same.nodes reference
  cases resolved : Symbol.resolve g reference with
  | error wanted =>
    unfold selectSymbol
    rw [names, resolved]
  | ok start =>
    rw [resolved] at names
    have known := Symbol.contains_of_resolve resolved
    have known' := Symbol.contains_of_resolve names
    cases tripped : interrupt.tripped? with
    | some cause =>
      rw [value_selectSymbol_of_tripped resolved known tripped,
        value_selectSymbol_of_tripped names known' tripped]
    | none =>
      obtain ⟨flow, value, holds⟩ :=
        @value_selectSymbol_of_quiet g plan reference start interrupt resolved known tripped
      obtain ⟨flow', value', holds'⟩ :=
        @value_selectSymbol_of_quiet g' plan reference start interrupt names known' tripped
      have near : Walk.Near (Filter.bind g' plan.filter).value plan.direction plan.maxDepth start =
          Walk.Near (Filter.bind g plan.filter).value plan.direction plan.maxDepth start := by
        unfold Walk.Near
        rw [(passes_bind_congr same wf wf' plan.filter).2]
      rw [near] at holds'
      rw [value, value']
      exact congrArg Except.ok (answerOf_bind_congr same wf wf' holds holds')

end

/-- **Graphs that no query tells apart have the same answers**: a plan selects the same text from both,
or ends in the same error. -/
theorem value_select_congr (wf : g.WellFormed) (wf' : g'.WellFormed) (same : Indistinct g g')
    (bare : Indistinct g.withoutSynthetic g'.withoutSynthetic) :
    (select g' plan interrupt).run.value.map (answerOf plan) =
      (select g plan interrupt).run.value.map (answerOf plan) := by
  unfold select
  cases plan.symbol with
  | some reference => exact value_selectSymbol_congr same wf wf' reference
  | none =>
    dsimp only
    rw [value_selectProgram_eq, value_selectProgram_eq, bare.nodes]
    cases if 0 < g.withoutSynthetic.nodes.size then interrupt.tripped? else none with
    | some cause => rfl
    | none =>
      have wfBare := wf.withoutSynthetic
      have wfBare' := wf'.withoutSynthetic
      have holds := @holds_programFlow plan _ wfBare'
      rw [bare.arc wfBare wfBare', bare.entryPoints wfBare wfBare'] at holds
      exact congrArg Except.ok (answerOf_bind_congr bare wfBare wfBare' (holds_programFlow wfBare) holds)

end Query

end CallGraph
