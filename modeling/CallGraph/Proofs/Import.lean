import CallGraph.Proofs.Listing

/-!
**Reading a document makes a graph.**

The theory of `Document.toGraph`. Whatever a document says, the graph that is made of it is well
formed. If its ids are distinct and its calls lead between its nodes, then nothing is left out: the
graph has its nodes and its calls, in the same order.

* `WellFormed.addNode`, `WellFormed.connect`, `WellFormed.declareRoot` — graphs stay well formed as
  they grow, `wellFormed_toGraph`;
* `Document.Closed` — documents that are read without a note, `toGraph_of_closed`;
* `Reimported` — what is read from the document of a flow, `exists_reimported`.
-/

namespace CallGraph

/-! ### Graphs that grow stay well formed -/

namespace Graph

variable {g : Graph}

theorem wellFormed_empty : empty.WellFormed :=
  ⟨List.nodup_nil, fun _ here => absurd here (Array.not_mem_empty _), fun _ here =>
    absurd here List.not_mem_nil, fun _ here => absurd here (Array.not_mem_empty _),
    fun _ here => absurd here (Array.not_mem_empty _)⟩

theorem WellFormed.addNode (wf : g.WellFormed) {n : Node}
    (fits : ∀ l ∈ n.location, l.line ≤ maxLine) : (g.addNode n).value.1.WellFormed := by
  have ensured : Ensured g n (g.addNode n).value.1 (g.addNode n).value.2 := ensured_ensure g n
  obtain ⟨more, nodes, new⟩ := ensured.nodes
  have larger : g.nodes.size ≤ (g.addNode n).value.1.nodes.size := by
    rw [size_of_append nodes]
    exact Nat.le_add_right _ _
  refine ⟨ensured.distinct wf.distinct, fun e here => ?_, fun r root => ?_, fun m here => ?_,
    fun e here => ?_⟩
  · obtain ⟨left, right⟩ := wf.ends e (ensured.edges ▸ here)
    exact ⟨left.trans_le larger, right.trans_le larger⟩
  · exact (wf.roots r (ensured.roots ▸ root)).trans_le larger
  · rw [← Array.mem_toList_iff, nodes, List.mem_append, Array.mem_toList_iff] at here
    rcases here with old | added
    · exact wf.nodeLines m old
    · exact (new m added).1 ▸ fits
  · exact wf.callLines e (ensured.edges ▸ here)

theorem WellFormed.addEdge (wf : g.WellFormed) {e : Edge}
    (ends : e.caller < g.nodes.size ∧ e.callee < g.nodes.size)
    (fits : ∀ l ∈ e.call.site, l.line ≤ maxLine) : (g.addEdge e).WellFormed := by
  refine ⟨wf.distinct, fun e' here => ?_, wf.roots, wf.nodeLines, fun e' here => ?_⟩
  · rcases Array.mem_push.1 here with old | rfl
    · exact wf.ends e' old
    · exact ends
  · rcases Array.mem_push.1 here with old | rfl
    · exact wf.callLines e' old
    · exact fits

theorem connect_of_known {caller callee : String} {u v : Nat} {call : Call}
    (atCaller : g.find? caller = some u) (atCallee : g.find? callee = some v) :
    g.connect caller callee call = ⟨g.addEdge ⟨u, v, call⟩, []⟩ := by
  unfold Graph.connect
  rw [atCaller, atCallee]

theorem namedCalls_addEdge (g : Graph) (e : Edge) :
    (g.addEdge e).namedCalls = g.namedCalls ++ [(g.idOf e.caller, g.idOf e.callee, e.call)] := by
  show (g.edges.push e).toList.map _ = _
  rw [Array.toList_push, List.map_append]
  rfl

theorem WellFormed.connect (wf : g.WellFormed) {caller callee : String} {call : Call}
    (fits : ∀ l ∈ call.site, l.line ≤ maxLine) : (g.connect caller callee call).value.WellFormed := by
  unfold Graph.connect
  split
  · rename_i u v atCaller atCallee
    exact wf.addEdge ⟨((find?_eq_some_iff wf.distinct).1 atCaller).1,
      ((find?_eq_some_iff wf.distinct).1 atCallee).1⟩ fits
  · exact wf

theorem WellFormed.declareRoot (wf : g.WellFormed) {v : Nat} (inRange : v < g.nodes.size) :
    (g.declareRoot v).WellFormed := by
  have roots : ∀ r ∈ (g.declareRoot v).roots, r < g.nodes.size := by
    intro r root
    rcases mem_roots_declareRoot.1 root with old | rfl
    · exact wf.roots r old
    · exact inRange
  unfold Graph.declareRoot at roots ⊢
  split
  · exact wf
  · rename_i new
    rw [if_neg new] at roots
    exact ⟨wf.distinct, wf.ends, roots, wf.nodeLines, wf.callLines⟩

end Graph

open CallGraph.Graph

/-- A place that is read has the line that is given. -/
theorem le_maxLine_of_placeOf {file : Option String} {line : Option Nat}
    (fits : ∀ l, line = some l → l ≤ maxLine) : ∀ l ∈ placeOf file line, l.line ≤ maxLine := by
  intro l here
  obtain ⟨_, _, rfl⟩ := Option.map_eq_some_iff.1 here
  cases line with
  | none => exact Nat.zero_le _
  | some given => exact fits given rfl

namespace Document

variable {g : Graph} {d : Document}

theorem wellFormed_addNodes {rs : List NodeRecord} (wf : g.WellFormed)
    (fits : ∀ r ∈ rs, ∀ l, r.line = some l → l ≤ maxLine) : (addNodes g rs).value.WellFormed := by
  induction rs generalizing g with
  | nil => exact wf
  | cons r rest hyp =>
    obtain ⟨first, later⟩ := List.forall_mem_cons.1 fits
    exact hyp (wf.addNode (le_maxLine_of_placeOf first)) later

theorem wellFormed_addEdges {rs : List EdgeRecord} (wf : g.WellFormed)
    (fits : ∀ r ∈ rs, ∀ l, r.line = some l → l ≤ maxLine) : (addEdges g rs).value.WellFormed := by
  induction rs generalizing g with
  | nil => exact wf
  | cons r rest hyp =>
    obtain ⟨first, later⟩ := List.forall_mem_cons.1 fits
    exact hyp (wf.connect (le_maxLine_of_placeOf first)) later

theorem wellFormed_addRoots {ids : List String} (wf : g.WellFormed) :
    (addRoots g ids).value.WellFormed := by
  induction ids generalizing g with
  | nil => exact wf
  | cons id rest hyp =>
    rw [addRoots]
    split
    · rename_i v found
      exact hyp (wf.declareRoot ((find?_eq_some_iff wf.distinct).1 found).1)
    · exact hyp wf

/-- **Whatever a document says, its graph is well formed.** -/
theorem wellFormed_toGraph (fits : d.LinesFit) : d.toGraph.value.WellFormed :=
  wellFormed_addRoots (wellFormed_addEdges (wellFormed_addNodes wellFormed_empty fits.nodes)
    fits.edges)

/-! ### Documents that are read without a note -/

/-- **A document whose calls lead between its nodes**, which have distinct ids, and which declares no
roots. -/
structure Closed (d : Document) : Prop where
  distinct : (d.nodes.map (·.id)).Nodup
  ends : ∀ r ∈ d.edges, r.caller ∈ d.nodes.map (·.id) ∧ r.callee ∈ d.nodes.map (·.id)
  roots : d.roots = []

/-- Nodes with new ids are added, in order. -/
theorem addNodes_of_new {rs : List NodeRecord} (new : (g.ids ++ rs.map (·.id)).Nodup) :
    addNodes g rs = ⟨{ g with nodes := g.nodes ++ (rs.map NodeRecord.toNode).toArray }, []⟩ := by
  induction rs generalizing g with
  | nil =>
    rw [List.map_nil, Array.append_empty]
    rfl
  | cons r rest hyp =>
    have unknown : g.find? r.toNode.id = none := find?_eq_none_iff.2 fun known =>
      List.disjoint_of_nodup_append new known List.mem_cons_self
    have added : g.addNode r.toNode = ⟨({ g with nodes := g.nodes.push r.toNode }, g.nodes.size), []⟩ := by
      unfold addNode
      rw [unknown]
    have ids : ids { g with nodes := g.nodes.push r.toNode } = g.ids ++ [r.id] := by
      simp [Graph.ids, NodeRecord.toNode]
    rw [List.map_cons, List.append_cons, ← ids] at new
    have later := hyp new
    show (g.addNode r.toNode >>= fun added => addNodes added.1 rest) = _
    rw [added]
    show Logged.mk (addNodes _ rest).value ([] ++ (addNodes _ rest).notes) = _
    rw [later]
    simp

/-- Calls between known ids are added, in order. -/
theorem addEdges_of_known {rs : List EdgeRecord} (distinct : g.ids.Nodup)
    (known : ∀ r ∈ rs, r.caller ∈ g.ids ∧ r.callee ∈ g.ids) :
    ∃ edges, addEdges g rs = ⟨{ g with edges := edges }, []⟩ ∧
      namedCalls { g with edges := edges } =
        g.namedCalls ++ rs.map fun r => (r.caller, r.callee, r.toCall) := by
  induction rs generalizing g with
  | nil => exact ⟨g.edges, rfl, (List.append_nil _).symm⟩
  | cons r rest hyp =>
    obtain ⟨⟨callerKnown, calleeKnown⟩, later⟩ := List.forall_mem_cons.1 known
    obtain ⟨u, leftInRange, caller⟩ := mem_ids.1 callerKnown
    obtain ⟨v, rightInRange, callee⟩ := mem_ids.1 calleeKnown
    have added : g.connect r.caller r.callee r.toCall = ⟨g.addEdge ⟨u, v, r.toCall⟩, []⟩ :=
      connect_of_known ((find?_eq_some_iff distinct).2 ⟨leftInRange, caller⟩)
        ((find?_eq_some_iff distinct).2 ⟨rightInRange, callee⟩)
    have first : (g.addEdge ⟨u, v, r.toCall⟩).namedCalls =
        g.namedCalls ++ [(r.caller, r.callee, r.toCall)] := by
      rw [namedCalls_addEdge, caller, callee]
    obtain ⟨edges, rest_eq, calls⟩ := hyp (g := g.addEdge ⟨u, v, r.toCall⟩) distinct later
    refine ⟨edges, ?_, ?_⟩
    · show (g.connect r.caller r.callee r.toCall >>= fun g => addEdges g rest) = _
      rw [added]
      show Logged.mk (addEdges _ rest).value ([] ++ (addEdges _ rest).notes) = _
      rw [rest_eq]
      rfl
    · rw [List.map_cons, List.append_cons, ← first]
      exact calls

/-- **A closed document is read without a note**: nothing is left out. -/
theorem toGraph_of_closed (closed : d.Closed) : ∃ g, d.toGraph = ⟨g, []⟩ ∧
    g.nodes.toList = d.nodes.map NodeRecord.toNode ∧
    g.namedCalls = d.edges.map fun r => (r.caller, r.callee, r.toCall) := by
  have nodes : addNodes Graph.empty d.nodes = _ := addNodes_of_new closed.distinct
  have ids : ids { Graph.empty with
      nodes := Graph.empty.nodes ++ (d.nodes.map NodeRecord.toNode).toArray } =
      d.nodes.map (·.id) := by
    simp [Graph.ids, Graph.empty, NodeRecord.toNode, Function.comp_def]
  obtain ⟨edges, read, calls⟩ := addEdges_of_known (ids ▸ closed.distinct) (ids ▸ closed.ends)
  refine ⟨_, ?_, ?_, calls⟩
  · show (addNodes Graph.empty d.nodes >>= fun g => addEdges g d.edges >>= fun g =>
      addRoots g d.roots) = _
    rw [nodes, closed.roots]
    show Logged.mk (addEdges _ d.edges).value ([] ++ ((addEdges _ d.edges).notes ++ [])) = _
    rw [read]
    rfl
  · simp [Graph.empty]

end Document

/-! ### Reading the document of a flow -/

/-- **A graph that is read from the document of a flow**: it has the nodes of the flow, and one call
for each pair. -/
structure Reimported (s : Graph) (f : Flow) (g : Graph) : Prop where
  wellFormed : g.WellFormed
  nodes : ∀ n, (∃ v, g.node? v = some n) ↔ f.Has s n
  calls : ∀ n m call, (m, call) ∈ g.callsFrom n ↔ f.Shows s n m call

variable {s g : Graph} {f : Flow} {n m : Node} {call : Call}

/-- The ends of a pair are nodes of the flow. -/
theorem Flow.Of.has_of_shows (of : f.Of s) (wf : s.WellFormed) (shown : f.Shows s n m call) :
    f.Has s n ∧ f.Has s m := by
  have joined := of.joins_iff_exists_shows.2 ⟨call, shown⟩
  exact ⟨(of.has_iff wf).2 ⟨m, Or.inl joined⟩, (of.has_iff wf).2 ⟨n, Or.inr joined⟩⟩

theorem Document.closed_ofSelection (of : f.Of s) (wf : s.WellFormed) :
    (ofSelection s f).Closed := by
  have listed : ∀ {n : Node}, f.Has s n → n.id ∈ (ofSelection s f).nodes.map (·.id) := fun has =>
    List.mem_map.2 ⟨_, mem_nodes_ofSelection.2 ⟨_, has, rfl⟩, rfl⟩
  refine ⟨List.pairwise_map.2 ?_, fun r here => ?_, rfl⟩
  · apply (increasing_nodes_ofSelection wf).imp
    intro a b less same
    exact (compare_lt_iff_lt.1 less).ne same
  · obtain ⟨n, m, call, shown, rfl⟩ := (mem_edges_ofSelection of wf).1 here
    obtain ⟨left, right⟩ := of.has_of_shows wf shown
    exact ⟨listed left, listed right⟩

/-- **The document of a flow is read without a note**, as the nodes and calls that the flow shows. -/
theorem exists_reimported (of : f.Of s) (wf : s.WellFormed) :
    ∃ g, (Document.ofSelection s f).toGraph = ⟨g, []⟩ ∧ Reimported s f g := by
  obtain ⟨g, read, nodes, calls⟩ := Document.toGraph_of_closed (Document.closed_ofSelection of wf)
  have wf' : g.WellFormed := by
    have built := Document.wellFormed_toGraph (Document.linesFit_ofSelection of wf)
    rwa [read] at built
  have has : ∀ n, (∃ v, g.node? v = some n) ↔ f.Has s n := by
    intro n
    rw [exists_node?_iff, nodes, List.mem_map]
    simp only [Document.mem_nodes_ofSelection]
    constructor
    · rintro ⟨_, ⟨n, has, rfl⟩, rfl⟩
      rwa [NodeRecord.toNode_ofNode]
    · exact fun has => ⟨_, ⟨n, has, rfl⟩, NodeRecord.toNode_ofNode n⟩
  refine ⟨g, read, wf', has, fun n m call => ?_⟩
  rw [callsFrom_eq_filterMap wf', calls, List.filterMap_map, List.mem_filterMap]
  simp only [Document.mem_edges_ofSelection of wf, Function.comp_apply, readCall_eq_some_iff,
    named?_eq_some_iff wf', has]
  constructor
  · rintro ⟨_, ⟨a, b, call, shown, rfl⟩, ⟨hasN, callers⟩, ⟨hasM, callees⟩, rfl⟩
    obtain ⟨⟨_, _, atA⟩, ⟨_, _, atB⟩⟩ := of.has_of_shows wf shown
    obtain ⟨_, _, atN⟩ := hasN
    obtain ⟨_, _, atM⟩ := hasM
    rw [EdgeRecord.toCall_ofCall, wf.node_eq atN atA callers, wf.node_eq atM atB callees]
    exact shown
  · intro shown
    obtain ⟨left, right⟩ := of.has_of_shows wf shown
    exact ⟨_, ⟨n, m, call, shown, rfl⟩, ⟨left, rfl⟩, ⟨right, rfl⟩, EdgeRecord.toCall_ofCall _ _ _⟩

/-- There is one call for each pair, so it is the first that passes a test if it passes it. -/
theorem Reimported.firstCall_eq_some_iff (reimported : Reimported s f g) (of : f.Of s)
    (wf : s.WellFormed) {p : Call → Bool} :
    g.firstCall n m p = some call ↔ f.Shows s n m call ∧ p call = true := by
  have only : ∀ call', (m, call') ∈ g.callsFrom n → f.Shows s n m call → call' = call := by
    intro call' here shown
    exact ((reimported.calls n m call').1 here).call_unique of wf shown
  constructor
  · intro first
    obtain ⟨here, passes⟩ := mem_of_firstCall first
    exact ⟨(reimported.calls n m call).1 here, passes⟩
  · rintro ⟨shown, passes⟩
    have here := (reimported.calls n m call).2 shown
    obtain ⟨call', first⟩ := exists_firstCall_iff.2 ⟨call, here, passes⟩
    rw [first, only call' (mem_of_firstCall first).1 shown]

end CallGraph
