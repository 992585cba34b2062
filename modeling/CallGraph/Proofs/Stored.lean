import CallGraph.Graph.Store
import CallGraph.Proofs.Built

/-!
**What is stored of a graph stays in step.**

The theory of `Store`. Next to nodes, edges and roots a store keeps a table of ids and lists of edges;
as long as they say what the nodes and edges do, an operation on the store is the one on the graph,
and they go on doing so.

* `Graph.numbersOf` — the numbers of some edges, `numbersOf_addEdge` — after one more;
* `InStep` — a store whose table and lists are right; `outgoing_eq`, `incoming_eq`, `inDegree_eq` —
  its answers are those of the graph;
* `InStep.addNode`, `InStep.addEdge`, `InStep.connect`, `InStep.declareRoot`, `inStep_merge` — what
  each operation that adds something keeps, with `graph_addNode` and so on for what it does.
-/

namespace CallGraph

/-! ### The lists of edges at a node -/

namespace Graph

variable {g : Graph} {v i : Nat} {e : Edge}

/-- The numbers of the edges that pass a test, in order. -/
def numbersOf (g : Graph) (p : Edge → Bool) : List Nat :=
  (g.numberedEdges.filter fun x => p x.1).map (·.2)

theorem pairwise_numbersOf (g : Graph) (p : Edge → Bool) : (g.numbersOf p).Pairwise (· < ·) := by
  have all : (g.numberedEdges.map (·.2)).Pairwise (· < ·) := by
    rw [numberedEdges, List.zipIdx_map_snd]
    exact List.pairwise_lt_range'
  exact all.sublist (List.filter_sublist.map _)

/-- The edges with the numbers are those that pass the test. -/
theorem filterMap_numbersOf (g : Graph) (p : Edge → Bool) :
    (g.numbersOf p).filterMap (fun i => g.edges[i]?.map fun e => (e, i)) =
      g.numberedEdges.filter fun x => p x.1 := by
  rw [numbersOf, List.filterMap_map]
  refine (List.filterMap_congr fun x here => ?_).trans List.filterMap_some
  obtain ⟨e, i⟩ := x
  have there := List.mem_zipIdx_iff_getElem?.1 (List.mem_filter.1 here).1
  simp only [Function.comp_apply, ← Array.getElem?_toList]
  rw [there]
  rfl

/-- An edge that is added gets the next number. -/
theorem numbersOf_addEdge (g : Graph) (e : Edge) (p : Edge → Bool) :
    (g.addEdge e).numbersOf p = g.numbersOf p ++ if p e then [g.edges.size] else [] := by
  have listed : (g.addEdge e).numberedEdges = g.numberedEdges ++ [(e, g.edges.size)] := by
    simp [numberedEdges, addEdge, List.zipIdx_append]
  rw [numbersOf, listed, List.filter_append, List.map_append]
  cases passes : p e <;> simp [numbersOf, passes]

/-- A node that is added is found under its id. -/
theorem find?_addNode_of_new {n : Node} (unknown : g.find? n.id = none) (id : String) :
    (g.addNode n).value.1.find? id = if id = n.id then some g.nodes.size else g.find? id := by
  have new := find?_eq_none_iff.1 unknown
  rw [addNode_of_new unknown]
  have ids : ids { g with nodes := g.nodes.push n } = g.ids ++ [n.id] := by
    simp [Graph.ids]
  rw [find?_eq_findIdx?, ids, List.findIdx?_append, ← find?_eq_findIdx?]
  by_cases same : id = n.id
  · rw [same, unknown, if_pos rfl]
    simp [Graph.ids]
  · have other : (n.id == id) = false := beq_eq_false_iff_ne.2 fun equal => same equal.symm
    simp [same, other]

end Graph

namespace Store

variable {s : Store} {v i : Nat} {e : Edge}

/-- **A store in step**: its table and its lists of edges say what its nodes and edges do. -/
structure InStep (s : Store) : Prop where
  distinct : s.graph.ids.Nodup
  table : ∀ id, s.find? id = s.graph.find? id
  ends : ∀ e ∈ s.edges, e.caller < s.slots.size ∧ e.callee < s.slots.size
  leaving : ∀ v, (s.leaving v).reverse = s.graph.numbersOf (·.caller == v)
  entering : ∀ v, (s.entering v).reverse = s.graph.numbersOf (·.callee == v)
  distinctRoots : s.roots.Nodup
  roots : ∀ r ∈ s.roots, r < s.slots.size

theorem size_graph (s : Store) : s.graph.nodes.size = s.slots.size :=
  Array.size_map

/-- Sorting the numbers at a node is turning them around. -/
theorem listed_eq {numbers : List Nat} {p : Edge → Bool}
    (known : numbers.reverse = s.graph.numbersOf p) :
    s.listed numbers = s.graph.numberedEdges.filter fun x => p x.1 := by
  have ascending : numbers.mergeSort.Pairwise (· ≤ ·) := by
    have all := @List.pairwise_mergeSort Nat (fun a b => decide (a ≤ b)) (by simp; omega)
      (by simp; omega) numbers
    simpa using all
  have turned : numbers.reverse.Pairwise (· ≤ ·) :=
    known ▸ (s.graph.pairwise_numbersOf p).imp Nat.le_of_lt
  have sorted : numbers.mergeSort = numbers.reverse :=
    ((List.mergeSort_perm _ _).trans numbers.reverse_perm.symm).eq_of_pairwise
      (fun _ _ _ _ => Nat.le_antisymm) ascending turned
  rw [listed, sorted, known]
  exact s.graph.filterMap_numbersOf p

theorem InStep.outgoing_eq (inStep : s.InStep) (v : Nat) : s.outgoing v = s.graph.outgoing v :=
  listed_eq (inStep.leaving v)

theorem InStep.incoming_eq (inStep : s.InStep) (v : Nat) : s.incoming v = s.graph.incoming v :=
  listed_eq (inStep.entering v)

theorem InStep.inDegree_eq (inStep : s.InStep) (v : Nat) : s.inDegree v = s.graph.inDegree v := by
  have same := congrArg List.length (inStep.entering v)
  rwa [List.length_reverse, Graph.numbersOf, List.length_map] at same

/-! ### Nodes -/

theorem graph_empty : graph {} = .empty := by
  simp [graph, Graph.empty]

theorem inStep_empty : InStep {} := by
  refine ⟨?_, fun id => ?_, fun _ here => absurd here (Array.not_mem_empty _), fun v => ?_,
    fun v => ?_, List.nodup_nil, fun _ here => absurd here List.not_mem_nil⟩
  all_goals rw [graph_empty]
  · exact List.nodup_nil
  · exact (Graph.find?_eq_none_iff.2 List.not_mem_nil).symm
  · rfl
  · rfl

theorem addNode_of_known {n : Node} {v : Nat} (known : s.find? n.id = some v) :
    s.addNode n = (s, v) := by
  rw [addNode, known]

theorem addNode_of_new {n : Node} (unknown : s.find? n.id = none) : s.addNode n =
    ({ s with
      slots := s.slots.push { node := n }
      table := (n.id, s.slots.size) :: s.table }, s.slots.size) := by
  rw [addNode, unknown]

/-- A node that is added makes and receives no calls. -/
theorem leaving_push (s : Store) (n : Node) (table : List (String × Nat)) (v : Nat) :
    leaving { s with slots := s.slots.push { node := n }, table := table } v = s.leaving v ∧
    entering { s with slots := s.slots.push { node := n }, table := table } v = s.entering v := by
  rcases Nat.lt_trichotomy v s.slots.size with old | new | beyond
  · simp [leaving, entering, Array.getElem?_push_lt, old]
  · simp [leaving, entering, new]
  · have absent : ¬ v < s.slots.size + 1 := by omega
    simp [leaving, entering, absent, Nat.le_of_lt beyond]

theorem graph_addNode (inStep : s.InStep) (n : Node) :
    (s.addNode n).1.graph = (s.graph.addNode n).value.1 ∧
      (s.addNode n).2 = (s.graph.addNode n).value.2 := by
  have same := inStep.table n.id
  cases known : s.find? n.id with
  | some v =>
    rw [addNode_of_known known, Graph.addNode_of_known (same.symm.trans known)]
    exact ⟨rfl, rfl⟩
  | none =>
    rw [addNode_of_new known, Graph.addNode_of_new (same.symm.trans known)]
    refine ⟨?_, s.size_graph.symm⟩
    simp [graph, Array.map_push]

theorem InStep.addNode (inStep : s.InStep) (n : Node) : (s.addNode n).1.InStep := by
  obtain ⟨same, _⟩ := graph_addNode inStep n
  have ensured := s.graph.ensured_ensure n
  cases known : s.find? n.id with
  | some v => rwa [addNode_of_known known]
  | none =>
    have distinct : (s.addNode n).1.graph.ids.Nodup := by
      rw [same]
      exact ensured.distinct inStep.distinct
    rw [addNode_of_new known] at distinct same ⊢
    refine ⟨distinct, fun id => ?_, fun e here => ?_, fun v => ?_, fun v => ?_,
      inStep.distinctRoots, fun r here => ?_⟩
    · rw [same, Graph.find?_addNode_of_new (inStep.table n.id ▸ known), size_graph, ← inStep.table]
      by_cases here : id = n.id
      · simp [Store.find?, here]
      · have other : (id == n.id) = false := beq_eq_false_iff_ne.2 here
        simp [Store.find?, here, List.lookup_cons, other]
    · obtain ⟨left, right⟩ := inStep.ends e here
      simp only [Array.size_push]
      omega
    · rw [(leaving_push s n _ v).1]
      exact inStep.leaving v
    · rw [(leaving_push s n _ v).2]
      exact inStep.entering v
    · have inRange := inStep.roots r here
      simp only [Array.size_push]
      omega

/-! ### Edges -/

theorem getElem?_attach (slots : Array Slot) (e : Edge) (i v : Nat) :
    (attach slots e i)[v]? = slots[v]?.map fun slot => { slot with
      leaving := if e.caller = v then i :: slot.leaving else slot.leaving
      entering := if e.callee = v then i :: slot.entering else slot.entering } := by
  rw [attach, Array.getElem?_modify, Array.getElem?_modify]
  cases slots[v]? with
  | none => simp
  | some slot => by_cases leaves : e.caller = v <;> by_cases enters : e.callee = v <;>
      simp [leaves, enters]

theorem size_attach (slots : Array Slot) (e : Edge) (i : Nat) :
    (attach slots e i).size = slots.size := by
  rw [attach, Array.size_modify, Array.size_modify]

theorem graph_addEdge (s : Store) (e : Edge) : (s.addEdge e).graph = s.graph.addEdge e := by
  have nodes : (attach s.slots e s.edges.size).map (·.node) = s.slots.map (·.node) := by
    refine Array.ext_getElem? fun v => ?_
    rw [Array.getElem?_map, Array.getElem?_map, getElem?_attach, Option.map_map]
    rfl
  exact congrArg (fun nodes => Graph.mk nodes (s.edges.push e) s.roots) nodes

/-- An edge is put at its ends, in front of those that are there. -/
theorem leaving_addEdge (inRange : e.caller < s.slots.size) (v : Nat) : (s.addEdge e).leaving v =
    if e.caller = v then s.edges.size :: s.leaving v else s.leaving v := by
  unfold leaving addEdge
  rw [getElem?_attach, Option.map_map]
  by_cases here : e.caller = v
  · obtain ⟨slot, there⟩ : ∃ slot, s.slots[v]? = some slot :=
      ⟨_, Array.getElem?_eq_getElem (here ▸ inRange)⟩
    simp [here, there]
  · simp [here, Function.comp_def]

theorem entering_addEdge (inRange : e.callee < s.slots.size) (v : Nat) : (s.addEdge e).entering v =
    if e.callee = v then s.edges.size :: s.entering v else s.entering v := by
  unfold entering addEdge
  rw [getElem?_attach, Option.map_map]
  by_cases here : e.callee = v
  · obtain ⟨slot, there⟩ : ∃ slot, s.slots[v]? = some slot :=
      ⟨_, Array.getElem?_eq_getElem (here ▸ inRange)⟩
    simp [here, there]
  · simp [here, Function.comp_def]

theorem InStep.addEdge (inStep : s.InStep) {e : Edge}
    (ends : e.caller < s.slots.size ∧ e.callee < s.slots.size) : (s.addEdge e).InStep := by
  have graph := graph_addEdge s e
  have size : (s.addEdge e).slots.size = s.slots.size := size_attach _ _ _
  refine ⟨?_, fun id => ?_, fun e' here => ?_, fun v => ?_, fun v => ?_, inStep.distinctRoots,
    fun r here => ?_⟩
  · rw [graph]
    exact inStep.distinct
  · rw [graph]
    exact inStep.table id
  · rw [size]
    rcases Array.mem_push.1 here with old | rfl
    · exact inStep.ends e' old
    · exact ends
  · rw [graph, Graph.numbersOf_addEdge, ← inStep.leaving, leaving_addEdge ends.1]
    by_cases here : e.caller = v <;> simp [here, Store.graph]
  · rw [graph, Graph.numbersOf_addEdge, ← inStep.entering, entering_addEdge ends.2]
    by_cases here : e.callee = v <;> simp [here, Store.graph]
  · rw [size]
    exact inStep.roots r here

theorem graph_connect (inStep : s.InStep) (caller callee : String) (call : Call) :
    (s.connect caller callee call).graph = (s.graph.connect caller callee call).value := by
  rw [connect, Graph.connect, ← inStep.table, ← inStep.table]
  cases s.find? caller <;> cases s.find? callee <;> first | rfl | exact graph_addEdge _ _

theorem InStep.lt_of_find? (inStep : s.InStep) {id : String} (found : s.find? id = some v) :
    v < s.slots.size := by
  rw [inStep.table, Graph.find?_eq_some_iff inStep.distinct, size_graph] at found
  exact found.1

theorem InStep.connect (inStep : s.InStep) (caller callee : String) (call : Call) :
    (s.connect caller callee call).InStep := by
  unfold Store.connect
  split
  · rename_i u v atCaller atCallee
    exact inStep.addEdge ⟨inStep.lt_of_find? atCaller, inStep.lt_of_find? atCallee⟩
  · exact inStep

/-! ### Roots -/

theorem graph_declareRoot (s : Store) (v : Nat) :
    (s.declareRoot v).graph = s.graph.declareRoot v := by
  unfold declareRoot Graph.declareRoot
  by_cases known : v ∈ s.roots
  · rw [if_pos known, if_pos (show v ∈ s.graph.roots from known)]
  · rw [if_neg known, if_neg (show v ∉ s.graph.roots from known)]
    rfl

theorem InStep.declareRoot (inStep : s.InStep) (inRange : v < s.slots.size) :
    (s.declareRoot v).InStep := by
  unfold Store.declareRoot
  split
  · exact inStep
  · rename_i new
    refine ⟨inStep.distinct, inStep.table, inStep.ends, inStep.leaving, inStep.entering, ?_,
      fun r here => ?_⟩
    · exact inStep.distinctRoots.append (List.nodup_singleton v) (List.disjoint_singleton.2 new)
    · rcases List.mem_append.1 here with old | last
      · exact inStep.roots r old
      · exact List.mem_singleton.1 last ▸ inRange

/-! ### Documents -/

theorem inStep_addNodes (inStep : s.InStep) (rs : List NodeRecord) :
    (rs.foldl (fun s r => (s.addNode r.toNode).1) s).InStep ∧
      (rs.foldl (fun s r => (s.addNode r.toNode).1) s).graph =
        (Document.addNodes s.graph rs).value := by
  induction rs generalizing s with
  | nil => exact ⟨inStep, rfl⟩
  | cons r rest hyp =>
    obtain ⟨later, same⟩ := hyp (inStep.addNode r.toNode)
    refine ⟨later, same.trans ?_⟩
    rw [(graph_addNode inStep r.toNode).1]
    rfl

theorem inStep_addEdges (inStep : s.InStep) (rs : List EdgeRecord) :
    (rs.foldl (fun s r => s.connect r.caller r.callee r.toCall) s).InStep ∧
      (rs.foldl (fun s r => s.connect r.caller r.callee r.toCall) s).graph =
        (Document.addEdges s.graph rs).value := by
  induction rs generalizing s with
  | nil => exact ⟨inStep, rfl⟩
  | cons r rest hyp =>
    obtain ⟨later, same⟩ := hyp (inStep.connect r.caller r.callee r.toCall)
    refine ⟨later, same.trans ?_⟩
    rw [graph_connect inStep]
    rfl

theorem inStep_addRoots (inStep : s.InStep) (ids : List String) :
    (ids.foldl declareId s).InStep ∧
      (ids.foldl declareId s).graph = (Document.addRoots s.graph ids).value := by
  induction ids generalizing s with
  | nil => exact ⟨inStep, rfl⟩
  | cons id rest hyp =>
    rw [List.foldl_cons, declareId, Document.addRoots, ← inStep.table]
    cases known : s.find? id with
    | none => exact hyp inStep
    | some v =>
      obtain ⟨later, same⟩ := hyp (inStep.declareRoot (inStep.lt_of_find? known))
      exact ⟨later, same.trans (by rw [graph_declareRoot])⟩

/-- Adding a document keeps a store in step with the graph. -/
theorem inStep_merge (inStep : s.InStep) (d : Document) :
    (s.merge d).InStep ∧ (s.merge d).graph = (d.mergeInto s.graph).value := by
  obtain ⟨first, nodes⟩ := inStep_addNodes inStep d.nodes
  obtain ⟨second, edges⟩ := inStep_addEdges first d.edges
  obtain ⟨third, roots⟩ := inStep_addRoots second d.roots
  refine ⟨third, roots.trans ?_⟩
  rw [edges, nodes]
  rfl

end Store

end CallGraph
