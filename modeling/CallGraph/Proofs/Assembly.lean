import CallGraph.Builder
import CallGraph.Proofs.Distance
import CallGraph.Proofs.Growth
import CallGraph.Proofs.Reach
import Mathlib.Logic.Relation

/-!
**The call graph of a program is that of what it can reach.**

The theory of `assemble` and of the analysis that follows what is made. First come the nodes of the
definitions; then each call adds one edge, and a node only for a function that is not among them.

* `targetId`, `callsOf` — what the edges of a definition say, by the ids of their ends;
* `Defined` — the graph of the definitions, `Assembled` — what it is after some calls
  (`assembled_addCall`), `assembled_definitions` — after all of them;
* `GraphOf` — the graph of a pair of definitions and types (`graphOf_least`);
* `Builder.analyse_reachable` — what the analysis gives, and when it fails.
-/

namespace CallGraph.Program

namespace Index

open Source (Definition Site)
open Relation (ReflTransGen)

variable {ix : Index} {algorithm : Algorithm} {made : Option (List String)}

/-- The id of the node that a target gets. -/
def targetId (ix : Index) (t : Target) : String :=
  ((ix.nodeOf t).map (·.id)).getD ""

/-- The calls of a definition: its own id, that of the target, and where the call is written; one
for each target of each of its sites. -/
def callsOf (ix : Index) (algorithm : Algorithm) (made : Option (List String)) (d : Definition) :
    List (String × String × Call) :=
  d.sites.flatMap fun site => (ix.resolve algorithm made d site).map fun t =>
    (d.id, ix.targetId t, { site := some ⟨d.file, site.line⟩ })

/-- What an edge says, by the ids of its ends. -/
def readEdge (g : Graph) (e : Edge) : String × String × Call :=
  (g.idOf e.caller, g.idOf e.callee, e.call)

/-! ### The nodes of the definitions -/

/-- The graph of some definitions: their nodes, each id once. -/
structure Defined (ds : List Definition) (g : Graph) : Prop where
  nodes : ∀ n ∈ g.nodes.toList, ∃ d ∈ ds, n = definitionNode d
  all : ∀ d ∈ ds, d.id ∈ g.ids
  distinct : g.ids.Nodup
  edges : g.edges = #[]
  roots : g.roots = []

theorem defined_addDefinitions {before ds : List Definition} {g : Graph}
    (known : Defined before g) : Defined (before ++ ds) (addDefinitions g ds).value := by
  induction ds generalizing before g with
  | nil => rwa [List.append_nil]
  | cons d rest hyp =>
    have ensured := g.ensured_ensure (definitionNode d)
    obtain ⟨more, nodes, new⟩ := ensured.nodes
    have step : Defined (before ++ [d]) (g.ensure (definitionNode d)).1 := by
      refine ⟨fun n here => ?_, fun c here => ?_, ensured.distinct known.distinct,
        ensured.edges.trans known.edges, ensured.roots.trans known.roots⟩
      · rw [nodes, List.mem_append] at here
        rcases here with old | added
        · obtain ⟨c, earlier, same⟩ := known.nodes n old
          exact ⟨c, List.mem_append_left _ earlier, same⟩
        · exact ⟨d, List.mem_append_right _ (List.mem_singleton_self d), (new n added).1⟩
      · rcases List.mem_append.1 here with earlier | last
        · rw [Graph.ids_of_append nodes]
          exact List.mem_append_left _ (known.all c earlier)
        · rw [List.mem_singleton.1 last]
          exact Graph.mem_ids.2 ⟨_, ensured.inRange, ensured.id⟩
    have later := hyp step
    rwa [List.append_assoc] at later

/-! ### Adding calls -/

/-- **What a graph is after some calls**: the `first` one, with a node behind its nodes for each
function that is not among them, and an edge for each of the calls. -/
structure Assembled (first : Graph) (calls : List (String × String × Call)) (g : Graph) :
    Prop where
  nodes : ∃ more, g.nodes.toList = first.nodes.toList ++ more ∧ ∀ n ∈ more, n.location = none
  distinct : g.ids.Nodup
  ends : ∀ e ∈ g.edges, e.caller < g.nodes.size ∧ e.callee < g.nodes.size
  calls : g.edges.toList.map (readEdge g) = calls
  /-- A node that has been added is called. -/
  called : ∀ v, first.nodes.size ≤ v → v < g.nodes.size → ∃ e ∈ g.edges, e.callee = v
  roots : g.roots = first.roots

/-- A target that the first graph has a node for, or that is no definition. -/
def Ready (ix : Index) (first : Graph) (t : Target) : Prop :=
  ∃ n, ix.nodeOf t = some n ∧ (n.location = none ∨ n.id ∈ first.ids)

variable {first g : Graph} {done : List (String × String × Call)}

theorem Assembled.idOf_first (known : Assembled first done g) {v : Nat}
    (inRange : v < first.nodes.size) : v < g.nodes.size ∧ g.idOf v = first.idOf v := by
  obtain ⟨more, nodes, _⟩ := known.nodes
  rw [Graph.size_of_append nodes]
  exact ⟨Nat.lt_add_right _ inRange, Graph.idOf_of_append nodes inRange⟩

/-- Edges say the same when nodes are added. -/
theorem map_readEdge_of_append {g' : Graph} {more : List Node} {es : List Edge}
    (nodes : g'.nodes.toList = g.nodes.toList ++ more)
    (ends : ∀ e ∈ es, e.caller < g.nodes.size ∧ e.callee < g.nodes.size) :
    es.map (readEdge g') = es.map (readEdge g) := by
  refine List.map_congr_left fun e here => ?_
  rw [readEdge, readEdge, Graph.idOf_of_append nodes (ends e here).1,
    Graph.idOf_of_append nodes (ends e here).2]

/-- A call is one edge to the node of its target, which is asked for. -/
theorem addCall_eq {caller : Nat} {site : Location} {t : Target} {n : Node}
    (node : ix.nodeOf t = some n) : ix.addCall caller site g t =
      (g.ensure n).1.addEdge ⟨caller, (g.ensure n).2, { site := some site }⟩ := by
  rw [addCall, node]

/-- **One call more.** -/
theorem assembled_addCall (known : Assembled first done g) {caller : Nat}
    (inRange : caller < first.nodes.size) {t : Target} (ready : ix.Ready first t)
    (site : Location) :
    Assembled first (done ++ [(first.idOf caller, ix.targetId t, { site := some site })])
      (ix.addCall caller site g t) := by
  obtain ⟨n, node, fresh⟩ := ready
  obtain ⟨more, nodes, outside⟩ := known.nodes
  have ensured := g.ensured_ensure n
  obtain ⟨new, appended, unknown⟩ := ensured.nodes
  obtain ⟨within, name⟩ := known.idOf_first inRange
  have grown : ∀ w < g.nodes.size, w < (g.ensure n).1.nodes.size := fun w old => by
    rw [Graph.size_of_append appended]
    exact Nat.lt_add_right _ old
  have id : ix.targetId t = n.id := by
    rw [targetId, node]
    rfl
  have edges : (ix.addCall caller site g t).edges =
      g.edges.push ⟨caller, (g.ensure n).2, { site := some site }⟩ := by
    rw [addCall_eq node, Graph.addEdge, ensured.edges]
  rw [addCall_eq node] at edges ⊢
  refine ⟨⟨more ++ new, ?_, fun m here => ?_⟩, ensured.distinct known.distinct, fun e here => ?_, ?_,
    fun v beyond inside => ?_, ensured.roots.trans known.roots⟩
  · exact appended.trans (by rw [nodes, List.append_assoc])
  · rcases List.mem_append.1 here with old | added
    · exact outside m old
    · -- The id was unknown to `g`, so it is none of a definition.
      obtain ⟨same, absent⟩ := unknown m added
      rw [same]
      refine fresh.resolve_right fun listed => absent ?_
      rw [Graph.ids_of_append nodes]
      exact List.mem_append_left _ listed
  · rw [edges, Array.mem_push] at here
    rcases here with old | same
    · exact ⟨grown _ (known.ends e old).1, grown _ (known.ends e old).2⟩
    · rw [same]
      exact ⟨grown caller within, ensured.inRange⟩
  · have old : g.edges.toList.map (readEdge (g.ensure n).1) = done := by
      rw [map_readEdge_of_append appended fun e here => known.ends e (Array.mem_toList_iff.1 here)]
      exact known.calls
    show List.map (readEdge (g.ensure n).1) _ = _
    rw [edges, Array.toList_push, List.map_append, old, List.map_singleton, id, readEdge,
      Graph.idOf_of_append appended within, name, ensured.id]
  · rw [edges]
    by_cases old : v < g.nodes.size
    · obtain ⟨e, here, callee⟩ := known.called v beyond old
      exact ⟨e, Array.mem_push.2 (Or.inl here), callee⟩
    · exact ⟨_, Array.mem_push_self, (ensured.only v (Nat.le_of_not_lt old) inside).symm⟩

/-- Steps that each add some calls add all of them, one after the other. -/
theorem assembled_foldl {α : Type} {step : Graph → α → Graph}
    {calls : α → List (String × String × Call)} {xs : List α}
    (adds : ∀ x ∈ xs, ∀ g done, Assembled first done g →
      Assembled first (done ++ calls x) (step g x))
    (known : Assembled first done g) :
    Assembled first (done ++ xs.flatMap calls) (xs.foldl step g) := by
  induction xs generalizing g done with
  | nil => rwa [List.flatMap_nil, List.append_nil]
  | cons x rest hyp =>
    have later := hyp (fun y here => adds y (List.mem_cons_of_mem x here))
      (adds x List.mem_cons_self g done known)
    rwa [List.append_assoc, ← List.flatMap_cons] at later

/-- The calls of a definition. -/
theorem assembled_addCalls {d : Definition} (listed : d.id ∈ first.ids)
    (ready : ∀ site ∈ d.sites, ∀ t ∈ ix.resolve algorithm made d site, ix.Ready first t)
    (known : Assembled first done g) :
    Assembled first (done ++ ix.callsOf algorithm made d) (ix.addCalls algorithm made g d) := by
  obtain ⟨caller, inRange, name⟩ := Graph.mem_ids.1 listed
  have found : g.find? d.id = some caller := by
    obtain ⟨within, same⟩ := known.idOf_first inRange
    exact (Graph.find?_eq_some_iff known.distinct).2 ⟨within, same.trans name⟩
  unfold addCalls callsOf
  rw [found]
  refine assembled_foldl (fun site here g done known => ?_) known
  rw [List.map_eq_flatMap]
  refine assembled_foldl (fun t inTargets g done known => ?_) known
  rw [← name]
  exact assembled_addCall known inRange (ready site here t inTargets) ⟨d.file, site.line⟩

/-- The graph of some definitions. -/
theorem defined_definitions (ds : List Definition) : Defined ds (addDefinitions .empty ds).value := by
  have empty : Defined [] Graph.empty :=
    ⟨fun n here => absurd here List.not_mem_nil, fun d here => absurd here List.not_mem_nil,
      List.nodup_nil, rfl, rfl⟩
  exact defined_addDefinitions empty

/-- No call has been added yet. -/
theorem Defined.assembled {ds : List Definition} (defined : Defined ds first) :
    Assembled first [] first := by
  refine ⟨⟨[], (List.append_nil _).symm, fun n here => absurd here List.not_mem_nil⟩,
    defined.distinct, fun e here => ?_, ?_, fun v beyond inside => ?_, rfl⟩
  · rw [defined.edges] at here
    exact absurd here (Array.not_mem_empty e)
  · rw [defined.edges]
    rfl
  · exact absurd inside (Nat.not_lt.2 beyond)

/-- **All calls of some definitions**, provided that no call means another definition. -/
theorem assembled_definitions {numbers : List Nat}
    (ready : ∀ i ∈ numbers, ∀ d, ix.definition? i = some d → ∀ site ∈ d.sites, ∀ j,
      .definition j ∈ ix.resolve algorithm made d site → j ∈ numbers) :
    Assembled (addDefinitions .empty (numbers.filterMap ix.definition?)).value
      ((numbers.filterMap ix.definition?).flatMap (ix.callsOf algorithm made))
      (ix.assemble algorithm made numbers).value := by
  have defined := defined_definitions (numbers.filterMap ix.definition?)
  refine assembled_foldl (fun d here g done known => ?_) defined.assembled
  refine assembled_addCalls (defined.all d here) (fun site inSites t means => ?_) known
  obtain ⟨i, listed, found⟩ := List.mem_filterMap.1 here
  cases t with
  | definition j =>
    have inRange : j < ix.definitions.size := lt_of_mem_resolve means
    have there : ix.definition? j = some ix.definitions[j] := Array.getElem?_eq_getElem inRange
    have known := ready i listed d found site inSites j means
    refine ⟨definitionNode ix.definitions[j], ?_, Or.inr ?_⟩
    · rw [nodeOf, there]
      rfl
    · exact defined.all _ (List.mem_filterMap.2 ⟨j, known, there⟩)
  | standard f => exact ⟨_, rfl, Or.inl rfl⟩
  | external f => exact ⟨_, rfl, Or.inl rfl⟩
  | unresolved text => exact ⟨_, rfl, Or.inl rfl⟩

/-- **The graph of some definitions and their calls**, provided that no call means another
definition. -/
theorem assembled_assemble {numbers : List Nat}
    (ready : ∀ i ∈ numbers, ∀ d, ix.definition? i = some d → ∀ site ∈ d.sites, ∀ j,
      .definition j ∈ ix.resolve algorithm made d site → j ∈ numbers) :
    ∃ first, Defined (numbers.filterMap ix.definition?) first ∧
      Assembled first ((numbers.filterMap ix.definition?).flatMap (ix.callsOf algorithm made))
        (ix.assemble algorithm made numbers).value :=
  ⟨_, defined_definitions _, assembled_definitions ready⟩

section

variable {ds : List Definition} {calls : List (String × String × Call)}

/-- The nodes with a place in the source are those of the definitions. -/
theorem Assembled.located_iff (assembled : Assembled first calls g) (defined : Defined ds first)
    (id : String) :
    (∃ n ∈ g.nodes, n.id = id ∧ n.location.isSome = true) ↔ ∃ d ∈ ds, d.id = id := by
  obtain ⟨more, nodes, outside⟩ := assembled.nodes
  have split : ∀ n, n ∈ g.nodes ↔ n ∈ first.nodes.toList ∨ n ∈ more := fun n => by
    rw [← Array.mem_toList_iff, nodes, List.mem_append]
  constructor
  · rintro ⟨n, here, rfl, located⟩
    rcases (split n).1 here with own | added
    · obtain ⟨d, listed, same⟩ := defined.nodes n own
      exact ⟨d, listed, same ▸ rfl⟩
    · rw [outside n added] at located
      cases located
  · rintro ⟨d, listed, rfl⟩
    obtain ⟨n, own, same⟩ := List.mem_map.1 (defined.all d listed)
    obtain ⟨c, _, node⟩ := defined.nodes n own
    exact ⟨n, (split n).2 (Or.inl own), same, node ▸ rfl⟩

/-- The node of a definition. -/
theorem Assembled.exists_node (assembled : Assembled first calls g) (defined : Defined ds first)
    {d : Definition} (listed : d ∈ ds) : ∃ v < g.nodes.size, g.idOf v = d.id := by
  obtain ⟨v, inFirst, name⟩ := Graph.mem_ids.1 (defined.all d listed)
  obtain ⟨inRange, same⟩ := assembled.idOf_first inFirst
  exact ⟨v, inRange, same.trans name⟩

/-- A call is an arc between the nodes that have the ids. -/
theorem Assembled.arc_of_mem (assembled : Assembled first calls g) {u v : Nat} {call : Call}
    (listed : (g.idOf u, g.idOf v, call) ∈ calls) (left : u < g.nodes.size)
    (right : v < g.nodes.size) : g.Arc u v := by
  rw [← assembled.calls, List.mem_map] at listed
  obtain ⟨e, here, reads⟩ := listed
  have here := Array.mem_toList_iff.1 here
  obtain ⟨caller, callee⟩ := assembled.ends e here
  refine ⟨e, here, ?_, ?_, left, right⟩
  · exact Graph.idOf_inj assembled.distinct caller left (congrArg Prod.fst reads)
  · exact Graph.idOf_inj assembled.distinct callee right (congrArg (·.2.1) reads)

/-- A node is that of a definition, or somebody calls it. -/
theorem Assembled.node_cases (assembled : Assembled first calls g) (defined : Defined ds first)
    {v : Nat} (inRange : v < g.nodes.size) :
    (∃ d ∈ ds, g.idOf v = d.id) ∨
      ∃ u call, g.Arc u v ∧ (g.idOf u, g.idOf v, call) ∈ calls := by
  by_cases own : v < first.nodes.size
  · obtain ⟨d, listed, same⟩ := defined.nodes first.nodes[v] (Array.getElem_mem_toList own)
    refine Or.inl ⟨d, listed, ?_⟩
    rw [(assembled.idOf_first own).2, Graph.idOf, Graph.node?, Array.getElem?_eq_getElem own, same]
    rfl
  · obtain ⟨e, here, callee⟩ := assembled.called v (Nat.le_of_not_lt own) inRange
    obtain ⟨left, right⟩ := assembled.ends e here
    refine Or.inr ⟨e.caller, e.call, ⟨e, here, rfl, callee, left, inRange⟩, ?_⟩
    rw [← assembled.calls, ← callee]
    exact List.mem_map_of_mem (Array.mem_toList_iff.2 here)

end

/-! ### The graph of what can be reached -/

/-- **The graph of a pair of definitions and types.** -/
structure GraphOf (ix : Index) (roots : List Nat) (r : Reach) (g : Graph) : Prop where
  distinct : g.ids.Nodup
  ends : ∀ e ∈ g.edges, e.caller < g.nodes.size ∧ e.callee < g.nodes.size
  /-- The nodes with a place in the source are those of the definitions. -/
  located : ∀ id, (∃ n ∈ g.nodes, n.id = id ∧ n.location.isSome = true) ↔
    ∃ i ∈ r.definitions, ∃ d, ix.definition? i = some d ∧ d.id = id
  /-- There is one edge for each target of each call of each definition. -/
  calls : g.edges.toList.map (readEdge g) =
    ((ix.inOrder r).filterMap ix.definition?).flatMap (ix.callsOf .rta (some r.types))
  /-- The roots are the nodes of the entry points, each of them once. -/
  roots : g.roots.Nodup ∧ ∀ v, v ∈ g.roots ↔
    v < g.nodes.size ∧ ∃ i ∈ roots, ∃ d, ix.definition? i = some d ∧ g.idOf v = d.id
  reachable : ∀ v < g.nodes.size, ∃ root ∈ g.roots, ReflTransGen g.Arc root v

theorem mem_inOrder {r : Reach} {i : Nat} :
    i ∈ ix.inOrder r ↔ i < ix.definitions.size ∧ i ∈ r.definitions := by
  rw [inOrder, List.mem_filter, List.mem_range, List.contains_iff_mem]

theorem mem_chosen {r : Reach} {d : Definition} :
    d ∈ (ix.inOrder r).filterMap ix.definition? ↔
      ∃ i ∈ r.definitions, ix.definition? i = some d := by
  rw [List.mem_filterMap]
  constructor
  · rintro ⟨i, here, found⟩
    exact ⟨i, (mem_inOrder.1 here).2, found⟩
  · rintro ⟨i, here, found⟩
    exact ⟨i, mem_inOrder.2 ⟨(Array.getElem?_eq_some_iff.1 found).1, here⟩, found⟩

/-- A call of another definition is among the calls of a definition. -/
theorem exists_mem_callsOf {d c : Definition} {site : Site} {j : Nat} (inSites : site ∈ d.sites)
    (means : .definition j ∈ ix.resolve algorithm made d site) (there : ix.definition? j = some c) :
    ∃ call, (d.id, c.id, call) ∈ ix.callsOf algorithm made d := by
  have id : ix.targetId (.definition j) = c.id := by
    rw [targetId, nodeOf, there]
    rfl
  refine ⟨{ site := some ⟨d.file, site.line⟩ }, List.mem_flatMap.2 ⟨site, inSites, ?_⟩⟩
  exact List.mem_map.2 ⟨_, means, by rw [id]⟩

section

variable {roots declared : List Nat} {r : Reach}

/-- **The node of whatever is reachable can be reached from a root**: the definitions of which that
is so are closed. -/
theorem exists_path_of_least (least : ix.Least roots r)
    (defined : Defined ((ix.inOrder r).filterMap ix.definition?) first)
    (assembled : Assembled first
      (((ix.inOrder r).filterMap ix.definition?).flatMap (ix.callsOf .rta (some r.types))) g)
    (isRoot : ∀ v, v ∈ declared ↔
      v < g.nodes.size ∧ ∃ i ∈ roots, ∃ d, ix.definition? i = some d ∧ g.idOf v = d.id)
    {i v : Nat} {d : Definition} (here : i ∈ r.definitions) (found : ix.definition? i = some d)
    (inRange : v < g.nodes.size) (name : g.idOf v = d.id) :
    ∃ root ∈ declared, ReflTransGen g.Arc root v := by
  classical
  let Led : Nat → Prop := fun i => ∀ d, ix.definition? i = some d → ∀ v < g.nodes.size,
    g.idOf v = d.id → ∃ root ∈ declared, ReflTransGen g.Arc root v
  have closed : ix.Closed roots ⟨r.definitions.filter (Led ·), r.types⟩ := by
    refine ⟨fun i root => ?_, fun i here => ?_, fun i here d found site inSites j means => ?_⟩
    · refine List.mem_filter.2 ⟨least.closed.roots i root, decide_eq_true ?_⟩
      exact fun d found v inRange name => ⟨v, (isRoot v).2 ⟨inRange, i, root, d, found, name⟩, .refl⟩
    · exact least.closed.made i (List.mem_filter.1 here).1
    · obtain ⟨known, led⟩ := List.mem_filter.1 here
      have next := least.closed.called i known d found site inSites j means
      refine List.mem_filter.2 ⟨next, decide_eq_true fun c there v inRange name => ?_⟩
      have chosen := mem_chosen.2 ⟨i, known, found⟩
      obtain ⟨u, left, own⟩ := assembled.exists_node defined chosen
      obtain ⟨root, declared, path⟩ := of_decide_eq_true led d found u left own
      obtain ⟨call, listed⟩ := exists_mem_callsOf inSites means there
      rw [← own, ← name] at listed
      have arc := assembled.arc_of_mem (List.mem_flatMap.2 ⟨d, chosen, listed⟩) left inRange
      exact ⟨root, declared, path.tail arc⟩
  exact of_decide_eq_true (List.mem_filter.1 ((least.least _ closed).1 here)).2 d found v inRange name

/-- **Every node can be reached from a root**: that of a definition, and what a definition calls. -/
theorem reachable_of_least (least : ix.Least roots r)
    (defined : Defined ((ix.inOrder r).filterMap ix.definition?) first)
    (assembled : Assembled first
      (((ix.inOrder r).filterMap ix.definition?).flatMap (ix.callsOf .rta (some r.types))) g)
    (isRoot : ∀ v, v ∈ declared ↔
      v < g.nodes.size ∧ ∃ i ∈ roots, ∃ d, ix.definition? i = some d ∧ g.idOf v = d.id)
    (v : Nat) (inRange : v < g.nodes.size) : ∃ root ∈ declared, ReflTransGen g.Arc root v := by
  rcases assembled.node_cases defined inRange with ⟨d, listed, name⟩ | ⟨u, call, arc, called⟩
  · obtain ⟨i, here, found⟩ := mem_chosen.1 listed
    exact exists_path_of_least least defined assembled isRoot here found inRange name
  · obtain ⟨d, listed, here⟩ := List.mem_flatMap.1 called
    obtain ⟨i, known, found⟩ := mem_chosen.1 listed
    simp only [callsOf, List.mem_flatMap, List.mem_map] at here
    obtain ⟨site, _, t, _, same⟩ := here
    have name : d.id = g.idOf u := congrArg Prod.fst same
    have left : u < g.nodes.size := (Graph.arc_iff.1 arc).1
    obtain ⟨root, declared, path⟩ :=
      exists_path_of_least least defined assembled isRoot known found left name.symm
    exact ⟨root, declared, path.tail arc⟩

end

/-- The roots that are declared are the nodes of the entry points. -/
theorem mem_roots_declareRoots {roots : List Nat} (distinct : g.ids.Nodup) (none : g.roots = [])
    {v : Nat} : v ∈ (ix.declareRoots roots g).roots ↔
      v < g.nodes.size ∧ ∃ i ∈ roots, ∃ d, ix.definition? i = some d ∧ g.idOf v = d.id := by
  rw [declareRoots, Graph.mem_roots_foldl_declareRoot, none, or_iff_right List.not_mem_nil,
    List.mem_filterMap]
  simp only [Option.bind_eq_some_iff, Graph.find?_eq_some_iff distinct]
  constructor
  · rintro ⟨i, root, d, found, inRange, same⟩
    exact ⟨inRange, i, root, d, found, same⟩
  · rintro ⟨inRange, i, root, d, found, same⟩
    exact ⟨i, root, d, found, inRange, same⟩

/-- **The graph that is assembled from the least closed pair.** -/
theorem graphOf_least {roots : List Nat} {r : Reach} (least : ix.Least roots r) :
    ix.GraphOf roots r
      (ix.declareRoots roots (ix.assemble .rta (some r.types) (ix.inOrder r)).value) := by
  have ready : ∀ i ∈ ix.inOrder r, ∀ d, ix.definition? i = some d → ∀ site ∈ d.sites, ∀ j,
      .definition j ∈ ix.resolve .rta (some r.types) d site → j ∈ ix.inOrder r :=
    fun i here d found site inSites j means => mem_inOrder.2 ⟨lt_of_mem_resolve means,
      least.closed.called i (mem_inOrder.1 here).2 d found site inSites j means⟩
  obtain ⟨first, defined, assembled⟩ := assembled_assemble ready
  generalize (ix.assemble .rta (some r.types) (ix.inOrder r)).value = g at assembled ⊢
  have noRoots : g.roots = [] := assembled.roots.trans defined.roots
  have isRoot : ∀ v, v ∈ (ix.declareRoots roots g).roots ↔ _ :=
    fun _ => mem_roots_declareRoots assembled.distinct noRoots
  have distinctRoots : (ix.declareRoots roots g).roots.Nodup :=
    Graph.nodup_roots_foldl_declareRoot (noRoots ▸ List.nodup_nil)
  obtain ⟨declared, same⟩ : ∃ declared, ix.declareRoots roots g = { g with roots := declared } :=
    Graph.foldl_declareRoot _ g
  rw [same] at isRoot distinctRoots ⊢
  refine ⟨assembled.distinct, assembled.ends, fun id => ?_, assembled.calls,
    ⟨distinctRoots, isRoot⟩, ?_⟩
  · refine (assembled.located_iff defined id).trans ?_
    simp only [mem_chosen]
    constructor
    · rintro ⟨d, ⟨i, here, found⟩, same⟩
      exact ⟨i, here, d, found, same⟩
    · rintro ⟨i, here, d, found, same⟩
      exact ⟨d, ⟨i, here, found⟩, same⟩
  · have all : ∀ v < g.nodes.size, ∃ root ∈ declared, ReflTransGen g.Arc root v :=
      reachable_of_least least defined assembled isRoot
    exact all

/-- The analysis that follows what is made gives the graph of the least closed pair. -/
theorem value_callGraph? (ix : Index) (tests : Bool) :
    (ix.callGraph? .rta tests).value =
      if ix.entryPoints tests = [] then none
      else some (ix.declareRoots (ix.entryPoints tests) (ix.assemble .rta
        (some (ix.reachable (ix.entryPoints tests)).types)
        (ix.inOrder (ix.reachable (ix.entryPoints tests)))).value) := by
  show (ix.reachableGraph? tests).value = _
  unfold reachableGraph?
  cases ix.entryPoints tests <;> rfl

end Index

end CallGraph.Program

namespace CallGraph.Builder

open Program (Index SourceFile)
open Program.Index (startSweep)

/-- What a whole analysis gives is the graph of the index, if there is one. -/
theorem value_analyse (r : BuildRequest) (sources : List SourceFile) :
    (analyse r sources).run.value =
      if sources.isEmpty then .error (.noSources r.moduleArgs)
      else match ((Index.ofSources sources { tests := r.includeTests, names := r.tags }).callGraph?
          r.algorithm r.includeTests).value with
        | some g => .ok g
        | none => .error .noEntryPoint := by
  unfold analyse
  cases sources with
  | nil => rfl
  | cons s rest =>
    simp only [List.isEmpty_cons, Bool.false_eq_true, if_false]
    generalize (Index.ofSources (s :: rest) _).callGraph? r.algorithm r.includeTests = built
    obtain ⟨graph, notes⟩ := built
    cases graph <;> rfl

/-- Where nothing is parsed nothing starts. -/
theorem entryPoints_ofSources_nil (on : Source.Features) (tests : Bool) :
    (Index.ofSources [] on).entryPoints tests = [] :=
  rfl

/-- **The analysis that follows what is made computes a least fixed point.** Without an entry point
it fails. Otherwise its sweeps end, each of them and all together, in the least pair of definitions
and types that is closed under making and calling, and it gives the graph of that pair. -/
theorem analyse_reachable {r : BuildRequest} (rta : r.algorithm = .rta)
    (sources : List SourceFile) :
    let ix := Index.ofSources sources { tests := r.includeTests, names := r.tags }
    let roots := ix.entryPoints r.includeTests
    (roots = [] → ∃ failure, (analyse r sources).run.value = .error failure) ∧
    (roots ≠ [] → ∃ found g, (analyse r sources).run.value = .ok g ∧ ix.Least roots found ∧
      ix.GraphOf roots found g ∧
      (∀ known, ∃ k, ix.sweepLoop.finished (ix.sweepLoop.after k (startSweep roots known)) = true) ∧
      ∃ k, found = (ix.sweep roots)^[k + 1] {} ∧
        ((ix.sweep roots)^[k + 1] {}).size = ((ix.sweep roots)^[k] {}).size ∧
        ∀ j < k, ((ix.sweep roots)^[j + 1] {}).size ≠ ((ix.sweep roots)^[j] {}).size) := by
  intro ix roots
  rw [value_analyse, rta, Index.value_callGraph?]
  refine ⟨fun none => ?_, fun some => ?_⟩
  · rw [if_pos none]
    split
    · exact ⟨_, rfl⟩
    · exact ⟨_, rfl⟩
  · have parsed : ¬ sources.isEmpty = true := by
      intro empty
      have none : sources = [] := List.isEmpty_iff.1 empty
      refine some ?_
      show (Index.ofSources sources _).entryPoints _ = []
      rw [none]
      exact entryPoints_ofSources_nil _ _
    rw [if_neg parsed, if_neg some]
    have least := ix.least_reachable roots
    refine ⟨ix.reachable roots, _, rfl, least, Index.graphOf_least least, fun known => ?_,
      ix.settle_eq_iterate roots {}⟩
    exact ⟨_, ix.sweepLoop.finished_after (Nat.le_refl _)⟩

/-- A request for one source. -/
def oneSource : BuildRequest where
  moduleArgs := ["app.rs"]
  dir := none
  algorithm := .rta
  includeTests := false
  tags := []

/-- A program that makes a square and measures it. -/
def square : List SourceFile :=
  [⟨"app.rs", "app",
    "impl Square \x7bfn area()\x7b\x7d\x7d fn main()\x7b(Square\x7b\x7d).area()\x7d"⟩]

theorem analyse_reachable_square :
    oneSource.algorithm = .rta ∧ (Index.ofSources square {}).entryPoints false ≠ [] ∧
    ∃ found g, (analyse oneSource square).run.value = .ok g ∧
      (Index.ofSources square {}).Least ((Index.ofSources square {}).entryPoints false) found ∧
      (Index.ofSources square {}).GraphOf ((Index.ofSources square {}).entryPoints false) found g := by
  have starts : (Index.ofSources square {}).entryPoints false ≠ [] := by decide +kernel
  obtain ⟨found, g, built, least, graph, _⟩ :=
    (analyse_reachable (r := oneSource) rfl square).2 starts
  exact ⟨rfl, starts, found, g, built, least, graph⟩

end CallGraph.Builder
