import CallGraph.Proofs.Stored

/-!
**The operations on graphs, one after another.**

A store without the synthetic nodes is made by adding what is left to an empty one, so it is in step
as well, and what holds after each operation holds after all.

* `Copied` — the copy of a store after some of its nodes (`copied_copyNode`);
* `bridges_eq`, `inStep_strip` — the calls between them, and the whole copy;
* `InStep.perform` — one operation, `InStep.performAll` — all of them;
* `Represents`, `Continues` — what a store and its graph have in common, what an operation leaves as
  it was; `represents_performAll`.
-/

namespace CallGraph

namespace Store

variable {s : Store} {v i : Nat} {e : Edge}

/-! ### Copying the nodes that are not synthetic -/

/-- The graph of some nodes without calls. -/
def ofNodes (ns : List Node) : Graph where
  nodes := ns.toArray

theorem isSynthetic_ofNodes (ns : List Node) (v : Nat) :
    (ofNodes ns).isSynthetic v = ns[v]?.any (·.synthetic) := by
  rw [Graph.isSynthetic, Graph.node?, ofNodes, List.getElem?_toArray]

theorem kept_ofNodes_append (done : List Node) (n : Node) : (ofNodes (done ++ [n])).kept =
    (ofNodes done).kept ++ if n.synthetic then [] else [done.length] := by
  have numbers : (ofNodes (done ++ [n])).nodeNumbers = (ofNodes done).nodeNumbers ++ [done.length] := by
    simp [Graph.nodeNumbers, ofNodes, List.range_succ]
  rw [Graph.kept, numbers, List.filter_append, Graph.kept]
  congr 1
  · refine List.filter_congr fun v here => ?_
    have inRange : v < done.length := by simpa [Graph.nodeNumbers, ofNodes] using here
    rw [isSynthetic_ofNodes, isSynthetic_ofNodes, List.getElem?_append_left inRange]
  · cases synthetic : n.synthetic <;> simp [isSynthetic_ofNodes, synthetic]

theorem getElem?_concat_eq_some_iff {α : Type} {l : List α} {x y : α} {i : Nat} :
    (l ++ [x])[i]? = some y ↔ l[i]? = some y ∨ i = l.length ∧ x = y := by
  grind

/-- **The copy of a store after some nodes**: it has those that are not synthetic, and knows the
number of each. -/
structure Copied (done : List Node) (copy : Store × List (Option Nat)) : Prop where
  inStep : copy.1.InStep
  nodes : copy.1.graph.nodes.toList = done.filter fun n => !n.synthetic
  edges : copy.1.edges = #[]
  roots : copy.1.roots = []
  length : copy.2.length = done.length
  numbers : ∀ v a : Nat, copy.2[v]? = some (some a) ↔ (ofNodes done).kept[a]? = some v

theorem length_kept_ofNodes (ns : List Node) :
    (ofNodes ns).kept.length = (ns.filter fun n => !n.synthetic).length := by
  rw [← Graph.size_withoutSynthetic, ← Array.length_toList, Graph.nodes_withoutSynthetic]
  rfl

theorem copied_copyNode {done : List Node} {copy : Store × List (Option Nat)} {n : Node}
    (known : Copied done copy) (new : n.id ∉ done.map (·.id)) :
    Copied (done ++ [n]) (copyNode copy n) := by
  have kept := kept_ofNodes_append done n
  rw [copyNode]
  cases synthetic : n.synthetic with
  | true =>
    rw [synthetic, if_pos rfl, List.append_nil] at kept
    rw [if_pos rfl]
    refine ⟨known.inStep, ?_, known.edges, known.roots, ?_, fun v a => ?_⟩
    · rw [known.nodes, List.filter_append]
      simp [synthetic]
    · simp [known.length]
    · rw [getElem?_concat_eq_some_iff, kept, known.numbers]
      simp
  | false =>
    rw [synthetic, if_neg Bool.false_ne_true] at kept
    rw [if_neg Bool.false_ne_true]
    have unknown : copy.1.find? n.id = none := by
      rw [known.inStep.table, Graph.find?_eq_none_iff, Graph.ids, known.nodes]
      exact fun here => new (List.mem_map.2 (by grind))
    have added := graph_addNode known.inStep n
    have place : copy.1.slots.size = (ofNodes done).kept.length := by
      rw [length_kept_ofNodes, ← known.nodes, Array.length_toList, size_graph]
    refine ⟨known.inStep.addNode n, ?_, ?_, ?_, ?_, fun v a => ?_⟩
    · rw [added.1, Graph.addNode_of_new (known.inStep.table n.id ▸ unknown)]
      simp [known.nodes, synthetic]
    · rw [addNode_of_new unknown]
      exact known.edges
    · rw [addNode_of_new unknown]
      exact known.roots
    · simp [known.length]
    · rw [getElem?_concat_eq_some_iff, kept, getElem?_concat_eq_some_iff, known.numbers,
        addNode_of_new unknown, known.length, Option.some.injEq]
      show _ ∨ _ ∧ copy.1.slots.size = a ↔ _
      rw [place]
      grind

theorem copied_foldl {done ns : List Node} {copy : Store × List (Option Nat)}
    (known : Copied done copy) (distinct : ((done ++ ns).map (·.id)).Nodup) :
    Copied (done ++ ns) (ns.foldl copyNode copy) := by
  induction ns generalizing done copy with
  | nil => rwa [List.append_nil]
  | cons n rest hyp =>
    rw [List.append_cons] at distinct ⊢
    refine hyp (copied_copyNode known fun here => ?_) distinct
    rw [List.map_append, List.map_append] at distinct
    have apart := (List.nodup_append.1 distinct).1
    exact List.disjoint_of_nodup_append apart here (List.mem_singleton_self _)

theorem copied_empty : Copied [] ({}, []) :=
  ⟨inStep_empty, by rw [graph_empty]; rfl, rfl, rfl, rfl, fun _ _ => by simp [Graph.kept, Graph.nodeNumbers, ofNodes]⟩

/-! ### Adding the calls and the roots -/

theorem inStep_foldl_addEdge {es : List Edge} (inStep : s.InStep)
    (ends : ∀ e ∈ es, e.caller < s.slots.size ∧ e.callee < s.slots.size) :
    (es.foldl addEdge s).InStep ∧
      (es.foldl addEdge s).graph = { s.graph with edges := s.graph.edges ++ es.toArray } := by
  induction es generalizing s with
  | nil =>
    refine ⟨inStep, ?_⟩
    simp
  | cons e rest hyp =>
    obtain ⟨first, later⟩ := List.forall_mem_cons.1 ends
    have size : (s.addEdge e).slots.size = s.slots.size := size_attach _ _ _
    obtain ⟨last, same⟩ := hyp (inStep.addEdge first) (by rwa [size])
    refine ⟨last, same.trans ?_⟩
    rw [graph_addEdge]
    simp [Graph.addEdge]

theorem inStep_foldl_declareRoot {vs : List Nat} (inStep : s.InStep)
    (inRange : ∀ v ∈ vs, v < s.slots.size) :
    (vs.foldl declareRoot s).InStep ∧
      (vs.foldl declareRoot s).graph = vs.foldl Graph.declareRoot s.graph := by
  induction vs generalizing s with
  | nil => exact ⟨inStep, rfl⟩
  | cons v rest hyp =>
    obtain ⟨first, later⟩ := List.forall_mem_cons.1 inRange
    have size : (s.declareRoot v).slots.size = s.slots.size := by
      rw [← size_graph, graph_declareRoot, ← size_graph]
      unfold Graph.declareRoot
      split <;> rfl
    obtain ⟨last, same⟩ := hyp (inStep.declareRoot first) (by rwa [size])
    exact ⟨last, same.trans (by rw [graph_declareRoot]; rfl)⟩

/-- New roots are declared in order. -/
theorem foldl_declareRoot_of_nodup {g : Graph} {vs : List Nat} (distinct : (g.roots ++ vs).Nodup) :
    vs.foldl Graph.declareRoot g = { g with roots := g.roots ++ vs } := by
  induction vs generalizing g with
  | nil => rw [List.append_nil]; rfl
  | cons v rest hyp =>
    have new : v ∉ g.roots := fun here =>
      List.disjoint_of_nodup_append distinct here List.mem_cons_self
    have step : g.declareRoot v = { g with roots := g.roots ++ [v] } := if_neg new
    rw [List.foldl_cons, step]
    rw [List.append_cons] at distinct
    refine (hyp (g := { g with roots := g.roots ++ [v] }) distinct).trans ?_
    exact congrArg (Graph.mk g.nodes g.edges) (List.append_cons g.roots v rest).symm

/-- The images of the elements that pass a test. -/
theorem flatMap_filter {α β : Type} {p : α → Bool} {f : α → List β} {l : List α} :
    (l.filter p).flatMap f = l.flatMap fun a => if p a then f a else [] := by
  induction l with
  | nil => rfl
  | cons a rest hyp => cases passes : p a <;> simp [passes, hyp]

/-- **The calls that are added are those of the graph without its synthetic nodes**, in order. -/
theorem bridges_eq (inStep : s.InStep) :
    s.bridges s.graph.renumber? = s.graph.withoutSynthetic.edges.toList := by
  show _ = (s.graph.bridged.filterMap _).toArray.toList
  rw [Graph.bridged, List.filterMap_flatMap, Graph.kept, flatMap_filter, bridges]
  rw [Graph.nodeNumbers, size_graph]
  refine List.flatMap_congr fun v here => ?_
  have inRange : v < s.graph.nodes.size := s.size_graph ▸ List.mem_range.1 here
  cases renumbered : s.graph.renumber? v with
  | none =>
    by_cases synthetic : s.graph.isSynthetic v = true
    · rw [synthetic]
      rfl
    · have other := Bool.eq_false_iff.2 synthetic
      obtain ⟨a, place⟩ := List.mem_iff_getElem?.1 (Graph.mem_kept.2 ⟨inRange, other⟩)
      rw [Graph.renumber?_eq_some_iff.2 place] at renumbered
      cases renumbered
  | some a =>
    have kept := List.mem_of_getElem? (Graph.renumber?_eq_some_iff.1 renumbered)
    rw [(Graph.mem_kept.1 kept).2, inStep.outgoing_eq, List.filterMap_flatMap]
    refine List.flatMap_congr fun first _ => ?_
    rw [List.filterMap_map]
    refine List.filterMap_congr fun w _ => ?_
    rw [Function.comp_apply]
    dsimp only
    rw [renumbered]
    cases s.graph.renumber? w <;> rfl

/-- The nodes that are kept depend on the nodes alone. -/
theorem kept_ofNodes (s : Store) : (ofNodes (s.slots.toList.map (·.node))).kept = s.graph.kept := by
  have nodes : (s.slots.toList.map (·.node)).toArray = s.graph.nodes := by
    rw [← Array.toList_map, Array.toArray_toList]
    rfl
  rw [ofNodes, nodes]
  rfl

/-- Stripping a store copies its nodes that are not synthetic. -/
theorem copied_nodes (inStep : s.InStep) : Copied (s.slots.toList.map (·.node))
    ((s.slots.toList.map (·.node)).foldl copyNode ({}, [])) := by
  have distinct : ((s.slots.toList.map (·.node)).map (·.id)).Nodup := by
    have known := inStep.distinct
    rwa [Graph.ids, graph, Array.toList_map] at known
  exact copied_foldl copied_empty distinct

/-- The copy knows the numbers that the nodes get. -/
theorem Copied.numbers_eq {copy : Store × List (Option Nat)}
    (copied : Copied (s.slots.toList.map (·.node)) copy) :
    (fun v => copy.2[v]?.join) = s.graph.renumber? := by
  funext v
  refine Option.ext fun a => ?_
  rw [Option.join_eq_some_iff, copied.numbers, Graph.renumber?_eq_some_iff, kept_ofNodes]

/-- After that it adds what is left of the edges and the roots to the copy. -/
theorem exists_copied (inStep : s.InStep) : ∃ copy,
    Copied (s.slots.toList.map (·.node)) copy ∧
      s.strip = s.graph.withoutSynthetic.roots.foldl declareRoot
        (s.graph.withoutSynthetic.edges.toList.foldl addEdge copy.1) := by
  have copied := copied_nodes inStep
  have roots : s.graph.withoutSynthetic.roots = s.roots.filterMap s.graph.renumber? := rfl
  refine ⟨_, copied, ?_⟩
  rw [strip, ← bridges_eq inStep, roots, ← copied.numbers_eq]

/-- A copy holds the nodes of the graph without the synthetic ones, and nothing else. -/
theorem Copied.graph_eq {copy : Store × List (Option Nat)}
    (copied : Copied (s.slots.toList.map (·.node)) copy) :
    copy.1.graph = { nodes := s.graph.withoutSynthetic.nodes } := by
  have nodes : copy.1.graph.nodes = s.graph.withoutSynthetic.nodes := by
    rw [← Array.toList_inj, copied.nodes, Graph.nodes_withoutSynthetic, ← Array.toList_map]
    rfl
  rw [← nodes, graph, copied.edges, copied.roots]

/-- The numbers of kept nodes are those of nodes of the copy. -/
theorem Copied.lt_of_kept {copy : Store × List (Option Nat)}
    (copied : Copied (s.slots.toList.map (·.node)) copy) {a v : Nat}
    (place : s.graph.kept[a]? = some v) : a < copy.1.slots.size := by
  have size : copy.1.slots.size = s.graph.kept.length := by
    rw [← size_graph, ← Array.length_toList, copied.nodes, ← length_kept_ofNodes, kept_ofNodes]
  rw [size]
  exact (List.getElem?_eq_some_iff.1 place).1

/-- **Stripping a store is leaving the synthetic nodes out of its graph**, and what is left is in
step. -/
theorem inStep_strip (inStep : s.InStep) :
    s.strip.InStep ∧ s.strip.graph = s.graph.withoutSynthetic := by
  obtain ⟨copy, copied, strip_eq⟩ := exists_copied inStep
  have ends : ∀ e ∈ s.graph.withoutSynthetic.edges.toList,
      e.caller < copy.1.slots.size ∧ e.callee < copy.1.slots.size := fun e here => by
    obtain ⟨_, _, left, right, _⟩ :=
      Graph.mem_edges_withoutSynthetic.1 (Array.mem_toList_iff.1 here)
    exact ⟨copied.lt_of_kept left, copied.lt_of_kept right⟩
  obtain ⟨joined, calls⟩ := inStep_foldl_addEdge copied.inStep ends
  have there : ∀ a ∈ s.graph.withoutSynthetic.roots,
      a < (s.graph.withoutSynthetic.edges.toList.foldl addEdge copy.1).slots.size := fun a here => by
    obtain ⟨v, _, renumbered⟩ := List.mem_filterMap.1 here
    rw [← size_graph, calls]
    show a < copy.1.graph.nodes.size
    rw [size_graph]
    exact copied.lt_of_kept (Graph.renumber?_eq_some_iff.1 renumbered)
  obtain ⟨declared, roots⟩ := inStep_foldl_declareRoot joined there
  rw [strip_eq]
  refine ⟨declared, roots.trans ?_⟩
  rw [calls, copied.graph_eq]
  refine (foldl_declareRoot_of_nodup ?_).trans ?_
  · exact Graph.nodup_roots_withoutSynthetic inStep.distinctRoots
  · simp

/-! ### All operations -/

/-- **An operation on a store in step is the one on its graph**, and keeps it in step. -/
theorem InStep.perform (inStep : s.InStep) {op : Operation} (fits : op.Fits s.graph) :
    (s.perform op).InStep ∧ (s.perform op).graph = s.graph.perform op := by
  cases op with
  | addNode n => exact ⟨inStep.addNode n, (graph_addNode inStep n).1⟩
  | addEdge e =>
    have ends : e.caller < s.slots.size ∧ e.callee < s.slots.size := s.size_graph ▸ fits
    exact ⟨inStep.addEdge ends, graph_addEdge s e⟩
  | connect caller callee call =>
    exact ⟨inStep.connect caller callee call, graph_connect inStep caller callee call⟩
  | declareRoot v =>
    have inRange : v < s.slots.size := s.size_graph ▸ fits
    exact ⟨inStep.declareRoot inRange, graph_declareRoot s v⟩
  | merge d => exact inStep_merge inStep d
  | strip => exact inStep_strip inStep

/-- All operations, one after another. -/
theorem InStep.performAll (inStep : s.InStep) {ops : List Operation}
    (fit : Operation.AllFit s.graph ops) :
    (ops.foldl Store.perform s).InStep ∧
      (ops.foldl Store.perform s).graph = ops.foldl Graph.perform s.graph := by
  induction ops generalizing s with
  | nil => exact ⟨inStep, rfl⟩
  | cons op rest hyp =>
    obtain ⟨first, later⟩ := fit
    obtain ⟨kept, same⟩ := inStep.perform first
    rw [List.foldl_cons, List.foldl_cons, ← same]
    exact hyp kept (same ▸ later)

end Store

/-! ### What is kept -/

/-- **What a store and the graph that it is of have in common.** -/
structure Store.Represents (s : Store) (g : Graph) : Prop where
  graph : s.graph = g
  /-- No two nodes have the same id. -/
  distinct : g.ids.Nodup
  /-- An id is found exactly at the node that has it. -/
  found : ∀ id v, s.find? id = some v ↔ ∃ n, g.node? v = some n ∧ n.id = id
  /-- Edges lead from nodes to nodes. -/
  ends : ∀ e ∈ g.edges, (∃ n, g.node? e.caller = some n) ∧ ∃ n, g.node? e.callee = some n
  /-- An edge is listed once at its caller and once at its callee, under its number. -/
  once : ∀ i e, g.edges[i]? = some e → ∀ v,
    (s.outgoing v).count (e, i) = (if e.caller = v then 1 else 0) ∧
    (s.incoming v).count (e, i) = if e.callee = v then 1 else 0
  /-- Nothing else is listed. -/
  only : ∀ v x, x ∈ s.outgoing v ∨ x ∈ s.incoming v → g.edges[x.2]? = some x.1
  /-- Edges are listed by increasing number. -/
  increasing : ∀ v, ((s.outgoing v).map (·.2)).Pairwise (· < ·) ∧
    ((s.incoming v).map (·.2)).Pairwise (· < ·)
  inDegree : ∀ v, s.inDegree v = (s.incoming v).length
  /-- Roots are nodes, and declared once. -/
  roots : s.roots.Nodup ∧ ∀ r ∈ s.roots, ∃ n, g.node? r = some n
  /-- The questions have the same answers. -/
  answers : (∀ id, s.find? id = g.find? id) ∧
    ∀ v, s.outgoing v = g.outgoing v ∧ s.incoming v = g.incoming v ∧ s.inDegree v = g.inDegree v

/-- **What is there stays as it was**: nodes, edges and roots are only added behind the others. -/
structure Graph.Continues (g g' : Graph) : Prop where
  nodes : g.nodes.toList <+: g'.nodes.toList
  edges : g.edges.toList <+: g'.edges.toList
  roots : g.roots <+: g'.roots

namespace Graph

variable {g g' g'' : Graph}

theorem Continues.refl (g : Graph) : g.Continues g :=
  ⟨List.prefix_rfl, List.prefix_rfl, List.prefix_rfl⟩

theorem Continues.trans (first : g.Continues g') (second : g'.Continues g'') : g.Continues g'' :=
  ⟨first.nodes.trans second.nodes, first.edges.trans second.edges, first.roots.trans second.roots⟩

theorem continues_addNode (g : Graph) (n : Node) : g.Continues (g.addNode n).value.1 := by
  have ensured := g.ensured_ensure n
  obtain ⟨more, nodes, _⟩ := ensured.nodes
  refine ⟨⟨more, nodes.symm⟩, ?_, ?_⟩
  · show g.edges.toList <+: (g.ensure n).1.edges.toList
    rw [ensured.edges]
  · show g.roots <+: (g.ensure n).1.roots
    rw [ensured.roots]

theorem continues_addEdge (g : Graph) (e : Edge) : g.Continues (g.addEdge e) :=
  ⟨List.prefix_rfl, ⟨[e], Array.toList_push.symm⟩, List.prefix_rfl⟩

theorem continues_connect (g : Graph) (caller callee : String) (call : Call) :
    g.Continues (g.connect caller callee call).value := by
  unfold connect
  split
  · exact g.continues_addEdge _
  · exact .refl g

theorem continues_declareRoot (g : Graph) (v : Nat) : g.Continues (g.declareRoot v) := by
  unfold declareRoot
  split
  · exact .refl g
  · exact ⟨List.prefix_rfl, List.prefix_rfl, List.prefix_append _ _⟩

end Graph

namespace Document

open CallGraph.Graph

variable {g : Graph}

theorem continues_addNodes (g : Graph) (rs : List NodeRecord) :
    g.Continues (addNodes g rs).value := by
  induction rs generalizing g with
  | nil => exact .refl g
  | cons r rest hyp => exact (g.continues_addNode r.toNode).trans (hyp _)

theorem continues_addEdges (g : Graph) (rs : List EdgeRecord) :
    g.Continues (addEdges g rs).value := by
  induction rs generalizing g with
  | nil => exact .refl g
  | cons r rest hyp => exact (g.continues_connect r.caller r.callee r.toCall).trans (hyp _)

theorem continues_addRoots (g : Graph) (ids : List String) : g.Continues (addRoots g ids).value := by
  induction ids generalizing g with
  | nil => exact .refl g
  | cons id rest hyp =>
    rw [addRoots]
    split
    · exact (g.continues_declareRoot _).trans (hyp _)
    · exact hyp g

theorem continues_mergeInto (d : Document) (g : Graph) : g.Continues (d.mergeInto g).value :=
  ((continues_addNodes g d.nodes).trans (continues_addEdges _ d.edges)).trans
    (continues_addRoots _ d.roots)

end Document

/-- **Only stripping changes or renumbers what is there.** -/
theorem Graph.continues_perform {g : Graph} {op : Operation} (grows : op ≠ .strip) :
    g.Continues (g.perform op) := by
  cases op with
  | addNode n => exact g.continues_addNode n
  | addEdge e => exact g.continues_addEdge e
  | connect caller callee call => exact g.continues_connect caller callee call
  | declareRoot v => exact g.continues_declareRoot v
  | merge d => exact d.continues_mergeInto g
  | strip => exact absurd rfl grows

namespace Store

variable {s : Store}

/-- The edges that pass a test are listed once, under their numbers. -/
theorem count_filter_numberedEdges {g : Graph} {i : Nat} {e : Edge} (here : g.edges[i]? = some e)
    (p : Edge → Bool) :
    (g.numberedEdges.filter fun x => p x.1).count (e, i) = if p e then 1 else 0 := by
  have distinct : (g.numberedEdges.filter fun x => p x.1).Nodup :=
    ((g.pairwise_numbersOf p).imp Nat.ne_of_lt).of_map _ fun _ _ apart same => apart (same ▸ rfl)
  have listed : (e, i) ∈ g.numberedEdges.filter (fun x => p x.1) ↔ p e = true := by
    rw [List.mem_filter, and_iff_right]
    exact List.mem_zipIdx_iff_getElem?.2 (by rwa [Array.getElem?_toList])
  rw [distinct.count]
  simp only [listed]

/-- **A store in step represents its graph.** -/
theorem InStep.represents (inStep : s.InStep) : s.Represents s.graph := by
  have node {v : Nat} (inRange : v < s.slots.size) : ∃ n, s.graph.node? v = some n :=
    ⟨_, Array.getElem?_eq_getElem (by rwa [size_graph])⟩
  refine ⟨rfl, inStep.distinct, fun id v => ?_, fun e here => ?_, fun i e here v => ?_,
    fun v x here => ?_, fun v => ?_, fun v => ?_, ⟨inStep.distinctRoots, fun r here => ?_⟩,
    inStep.table, fun v => ?_⟩
  · rw [inStep.table, Graph.find?_eq_some_iff inStep.distinct, ← Graph.getElem?_ids_eq_some_iff,
      Graph.getElem?_ids, Option.map_eq_some_iff]
  · exact ⟨node (inStep.ends e here).1, node (inStep.ends e here).2⟩
  · rw [inStep.outgoing_eq, inStep.incoming_eq, Graph.outgoing, Graph.incoming]
    constructor
    · simpa using count_filter_numberedEdges here (·.caller == v)
    · simpa using count_filter_numberedEdges here (·.callee == v)
  · rw [inStep.outgoing_eq, inStep.incoming_eq] at here
    rcases here with leaves | enters
    · exact (Graph.mem_outgoing.1 leaves).1
    · exact (Graph.mem_incoming.1 enters).1
  · rw [inStep.outgoing_eq, inStep.incoming_eq]
    exact ⟨s.graph.pairwise_numbersOf (·.caller == v), s.graph.pairwise_numbersOf (·.callee == v)⟩
  · rw [inStep.inDegree_eq, inStep.incoming_eq]
    rfl
  · exact node (inStep.roots r here)
  · exact ⟨inStep.outgoing_eq v, inStep.incoming_eq v, inStep.inDegree_eq v⟩

/-- **A store represents its graph after every sequence of operations.** The operations on stores and
on graphs go on together; none but stripping changes or renumbers a node, an edge or a root that is
there; and a known id, or an unknown one at an end of an edge, changes nothing at all. -/
theorem represents_performAll {ops : List Operation} (fit : Operation.AllFit .empty ops) :
    let s := ops.foldl Store.perform {}
    let g := ops.foldl Graph.perform .empty
    s.Represents g ∧
    (∀ op : Operation, op.Fits g →
      (s.perform op).Represents (g.perform op) ∧ (op ≠ .strip → g.Continues (g.perform op))) ∧
    (∀ n v, s.find? n.id = some v → s.addNode n = (s, v) ∧ s.perform (.addNode n) = s) ∧
    ∀ caller callee call, s.find? caller = none ∨ s.find? callee = none →
      s.perform (.connect caller callee call) = s := by
  intro s g
  obtain ⟨inStep, same⟩ : s.InStep ∧ s.graph = g := by
    have fit : Operation.AllFit (graph {}) ops := by rwa [graph_empty]
    have done := inStep_empty.performAll fit
    rwa [graph_empty] at done
  refine ⟨same ▸ inStep.represents, fun op fits => ⟨?_, Graph.continues_perform⟩, fun n v known => ?_,
    fun caller callee call unknown => ?_⟩
  · obtain ⟨kept, next⟩ := inStep.perform (same.symm ▸ fits : op.Fits s.graph)
    rw [← same, ← next]
    exact kept.represents
  · have added := addNode_of_known known
    exact ⟨added, congrArg Prod.fst added⟩
  · show s.connect caller callee call = s
    unfold connect
    split
    · rename_i atCaller atCallee
      rw [atCaller, atCallee] at unknown
      simp at unknown
    · rfl

/-- A graph that is built by numbers, by ids and from a document, and then stripped. -/
def growing : List Operation :=
  [.addNode { id := "app::main", name := "main" },
    .addNode { id := "app::thunk", name := "thunk", synthetic := true }, .addEdge ⟨0, 1, {}⟩,
    .declareRoot 0,
    .merge {
      nodes := [{ id := "app::run", name := "run" }, { id := "app::main", name := "again" }]
      edges := [{ caller := "app::thunk", callee := "app::run" }]
      roots := ["app::run"] },
    .connect "app::run" "app::main" {}, .strip, .addEdge ⟨1, 0, {}⟩]

theorem represents_performAll_growing : Operation.AllFit .empty growing ∧
    let s := growing.foldl Store.perform {}
    let g := growing.foldl Graph.perform .empty
    s.Represents g ∧
    (∀ op : Operation, op.Fits g →
      (s.perform op).Represents (g.perform op) ∧ (op ≠ .strip → g.Continues (g.perform op))) ∧
    (∀ n v, s.find? n.id = some v → s.addNode n = (s, v) ∧ s.perform (.addNode n) = s) ∧
    ∀ caller callee call, s.find? caller = none ∨ s.find? callee = none →
      s.perform (.connect caller callee call) = s := by
  have fit : Operation.AllFit .empty growing := by decide +kernel
  exact ⟨fit, represents_performAll fit⟩

end Store

end CallGraph
