import CallGraph.Proofs.Arrangement
import CallGraph.Proofs.DocumentText
import CallGraph.Proofs.Records

/-!
**A flow as a document.**

The theory of `Document.ofSelection`: it lists the nodes of a flow in the order of their ids and its
pairs in the order of the ids of their ends, each once, and says nothing else.

* `mem_nodes_ofSelection`, `mem_edges_ofSelection` — what is listed;
* `increasing_nodes_ofSelection`, `increasing_edges_ofSelection` — in which order;
* `linesFit_ofSelection` — so it can be read back;
* `ofSelection_congr` — flows that show the same are one document.
-/

namespace CallGraph

namespace Document

open CallGraph.Flow CallGraph.Graph

/-- The order of nodes: by their ids. -/
def idOrder (a b : NodeRecord) : Ordering :=
  compare a.id b.id

/-- The order of calls: by the ids of caller and callee. -/
def pairOrder (a b : EdgeRecord) : Ordering :=
  (compare a.caller b.caller).then (compare a.callee b.callee)

instance : Std.TransCmp idOrder :=
  inferInstanceAs (Std.TransCmp (compareOn NodeRecord.id))

instance : Std.TransCmp pairOrder :=
  inferInstanceAs (Std.TransCmp (compareLex (compareOn EdgeRecord.caller) (compareOn EdgeRecord.callee)))

variable {g g' : Graph} {f f' : Flow}

/-! ### What is listed -/

theorem mem_nodes_ofSelection {r : NodeRecord} :
    r ∈ (ofSelection g f).nodes ↔ ∃ n, f.Has g n ∧ r = .ofNode n := by
  show r ∈ List.mergeSort _ _ ↔ _
  rw [List.mem_mergeSort, List.mem_map]
  constructor
  · rintro ⟨n, here, rfl⟩
    obtain ⟨v, listed, atV⟩ := List.mem_filterMap.1 here
    exact ⟨n, ⟨v, listed, atV⟩, rfl⟩
  · rintro ⟨n, ⟨v, listed, atV⟩, rfl⟩
    exact ⟨n, List.mem_filterMap.2 ⟨v, listed, atV⟩, rfl⟩

theorem mem_edges_ofSelection (of : f.Of g) (wf : g.WellFormed) {r : EdgeRecord} :
    r ∈ (ofSelection g f).edges ↔ ∃ n m call, f.Shows g n m call ∧ r = .ofCall n.id m.id call := by
  show r ∈ List.mergeSort _ _ ↔ _
  rw [List.mem_mergeSort, List.mem_map]
  constructor
  · rintro ⟨e, here, rfl⟩
    obtain ⟨link, listed, atEdge⟩ := List.mem_filterMap.1 here
    obtain ⟨e', atEdge', caller, callee⟩ := of.joins link listed
    obtain ⟨n, m, atCaller, atCallee⟩ := of.exists_nodes wf listed
    rw [atEdge] at atEdge'
    cases atEdge'
    refine ⟨n, m, e.call, ⟨link, listed, ⟨atCaller, atCallee⟩, e, atEdge, rfl⟩, ?_⟩
    rw [EdgeRecord.ofEdge, caller, callee, idOf_of_node? atCaller, idOf_of_node? atCallee]
  · rintro ⟨n, m, call, ⟨link, listed, ⟨atCaller, atCallee⟩, e, atEdge, rfl⟩, rfl⟩
    obtain ⟨e', atEdge', caller, callee⟩ := of.joins link listed
    rw [atEdge] at atEdge'
    cases atEdge'
    refine ⟨e, List.mem_filterMap.2 ⟨link, listed, atEdge⟩, ?_⟩
    rw [EdgeRecord.ofEdge, caller, callee, idOf_of_node? atCaller, idOf_of_node? atCallee]

/-! ### In which order -/

theorem increasing_nodes_ofSelection (wf : g.WellFormed) :
    Increasing idOrder (ofSelection g f).nodes := by
  refine increasing_mergeSort (List.pairwise_map.2 ?_)
  apply (pairwise_id_ne wf f).imp
  intro n m differ same
  exact differ (Std.LawfulEqOrd.eq_of_compare same)

theorem increasing_edges_ofSelection (of : f.Of g) (wf : g.WellFormed) :
    Increasing pairOrder (ofSelection g f).edges := by
  refine increasing_mergeSort ?_
  rw [List.pairwise_map, List.pairwise_filterMap]
  apply of.ordered.imp_of_mem
  intro a b first second order e atA e' atB same
  obtain ⟨callers, callees⟩ := Ordering.then_eq_eq.1 same
  obtain ⟨e₁, listed, caller, callee⟩ := of.joins a first
  obtain ⟨e₂, listed', caller', callee'⟩ := of.joins b second
  rw [atA] at listed
  rw [atB] at listed'
  cases listed
  cases listed'
  obtain ⟨left, right⟩ := wf.ends e (Array.mem_of_getElem? atA)
  obtain ⟨left', right'⟩ := wf.ends e' (Array.mem_of_getElem? atB)
  have sameCaller := idOf_inj wf.distinct left left' (Std.LawfulEqOrd.eq_of_compare callers)
  have sameCallee := idOf_inj wf.distinct right right' (Std.LawfulEqOrd.eq_of_compare callees)
  rw [caller, caller'] at sameCaller
  rw [callee, callee'] at sameCallee
  exact Link.not_samePair_of_before order (Link.samePair_iff.2 ⟨sameCaller.symm, sameCallee.symm⟩)

/-- As many as the flow has. -/
theorem length_nodes_ofSelection (of : f.Of g) (wf : g.WellFormed) :
    (ofSelection g f).nodes.length = f.nodeCount := by
  show (List.mergeSort _ _).length = f.nodes.length
  rw [List.length_mergeSort, List.length_map, List.length_filterMap_eq_countP, List.countP_eq_length]
  intro v here
  obtain ⟨n, atV⟩ := of.exists_node wf here
  rw [atV]
  rfl

theorem length_edges_ofSelection (of : f.Of g) :
    (ofSelection g f).edges.length = f.edgeCount := by
  show (List.mergeSort _ _).length = f.links.length
  rw [List.length_mergeSort, List.length_map, List.length_filterMap_eq_countP, List.countP_eq_length]
  intro link here
  obtain ⟨e, listed, _⟩ := of.joins link here
  rw [listed]
  rfl

/-! ### Reading it back -/

/-- Its lines are those of the graph. -/
theorem linesFit_ofSelection (of : f.Of g) (wf : g.WellFormed) : (ofSelection g f).LinesFit := by
  constructor
  · intro r here l given
    obtain ⟨n, ⟨v, _, atV⟩, rfl⟩ := mem_nodes_ofSelection.1 here
    obtain ⟨place, located, rfl⟩ := Option.map_eq_some_iff.1 given
    exact wf.nodeLines n (Array.mem_of_getElem? atV) place located
  · intro r here l given
    obtain ⟨n, m, call, ⟨link, _, _, e, atEdge, rfl⟩, rfl⟩ := (mem_edges_ofSelection of wf).1 here
    obtain ⟨place, located, rfl⟩ := Option.map_eq_some_iff.1 given
    exact wf.callLines e (Array.mem_of_getElem? atEdge) place located

/-- **A flow that is written as a document is read back as that document.** -/
theorem ofText_ofSelection (of : f.Of g) (wf : g.WellFormed) :
    ofText (ofSelection g f).toText = .ok (ofSelection g f) :=
  ofText_toText (linesFit_ofSelection of wf)

/-- **Flows that show the same are one document.** -/
theorem ofSelection_congr (of : f.Of g) (wf : g.WellFormed) (of' : f'.Of g') (wf' : g'.WellFormed)
    (same : ∀ n m call, f.Shows g n m call ↔ f'.Shows g' n m call) :
    ofSelection g f = ofSelection g' f' := by
  have joins : ∀ n m, f.Joins g n m ↔ f'.Joins g' n m := by
    intro n m
    rw [of.joins_iff_exists_shows, of'.joins_iff_exists_shows]
    exact exists_congr (same n m)
  have nodes : (ofSelection g f).nodes = (ofSelection g' f').nodes := by
    refine (increasing_nodes_ofSelection wf).eq_of_mem_iff (increasing_nodes_ofSelection wf')
      fun r => ?_
    simp only [mem_nodes_ofSelection, of.has_iff wf, of'.has_iff wf', joins]
  have edges : (ofSelection g f).edges = (ofSelection g' f').edges := by
    refine (increasing_edges_ofSelection of wf).eq_of_mem_iff (increasing_edges_ofSelection of' wf')
      fun r => ?_
    simp only [mem_edges_ofSelection of wf, mem_edges_ofSelection of' wf', same]
  exact congrArg₂ (Document.mk · · []) nodes edges

end Document

end CallGraph
