import CallGraph.Document.Text
import CallGraph.Proofs.Flow
import CallGraph.Proofs.Distance
import CallGraph.Proofs.Growth

/-!
**What a graph says, by the records of its nodes.**

The numbers of nodes and edges only tell in which order a graph was built. This is the theory of what
is left without them: which nodes a graph has, which calls lead from one to another, and what a flow
shows of them.

* `WellFormed` — what holds of every graph that is built by its operations;
* `callsFrom` — the calls of a node, `firstCall` — the first of them that leads to another node and
  passes a test;
* `namedCalls` — all calls between ids, `callsFrom_eq_filterMap` — those of a node among them;
* `Flow.Of` — the flows of a graph, `Flow.Joins`, `Flow.Shows` — what they show;
* `FilterConfig.keeps` — the verdict on a call between two nodes, `passes_eq_keeps` — a filter
  without a focus looks at nothing else;
* `joins_iff`, `shows_iff` — what the selection of near calls shows;
* `Leads.carry`, `hops_le_hops` — paths lead on in another graph that says the same.
-/

namespace CallGraph

namespace Graph

/-- **What holds of every graph.** An id tells a node from all others, edges join nodes, roots are
nodes, and lines are machine words. -/
structure WellFormed (g : Graph) : Prop where
  distinct : g.ids.Nodup
  ends : ∀ e ∈ g.edges, e.caller < g.nodes.size ∧ e.callee < g.nodes.size
  roots : ∀ r ∈ g.roots, r < g.nodes.size
  nodeLines : ∀ n ∈ g.nodes, ∀ l ∈ n.location, l.line ≤ maxLine
  callLines : ∀ e ∈ g.edges, ∀ l ∈ e.call.site, l.line ≤ maxLine

instance (g : Graph) : Decidable g.WellFormed :=
  decidable_of_iff (g.ids.Nodup ∧
      (∀ e ∈ g.edges, e.caller < g.nodes.size ∧ e.callee < g.nodes.size) ∧
      (∀ r ∈ g.roots, r < g.nodes.size) ∧
      (∀ n ∈ g.nodes, ∀ l ∈ n.location, l.line ≤ maxLine) ∧
      ∀ e ∈ g.edges, ∀ l ∈ e.call.site, l.line ≤ maxLine)
    ⟨fun ⟨distinct, ends, roots, nodeLines, callLines⟩ =>
      ⟨distinct, ends, roots, nodeLines, callLines⟩,
    fun wf => ⟨wf.distinct, wf.ends, wf.roots, wf.nodeLines, wf.callLines⟩⟩

variable {g : Graph} {n m : Node} {call : Call}

theorem exists_node? {v : Nat} (inRange : v < g.nodes.size) : ∃ n, g.node? v = some n :=
  ⟨_, Array.getElem?_eq_getElem inRange⟩

theorem exists_node?_iff : (∃ v, g.node? v = some n) ↔ n ∈ g.nodes.toList := by
  rw [Array.mem_toList_iff, Array.mem_iff_getElem?]
  rfl

theorem lt_of_node? {v : Nat} (here : g.node? v = some n) : v < g.nodes.size :=
  (Array.getElem?_eq_some_iff.1 here).1

theorem idOf_of_node? {v : Nat} (here : g.node? v = some n) : g.idOf v = n.id := by
  rw [idOf, here]
  rfl

/-- Nodes with one id have one number. -/
theorem WellFormed.node?_inj (wf : g.WellFormed) {u v : Nat} (left : g.node? u = some n)
    (right : g.node? v = some m) (same : n.id = m.id) : u = v := by
  refine idOf_inj wf.distinct (lt_of_node? left) (lt_of_node? right) ?_
  rw [idOf_of_node? left, idOf_of_node? right, same]

/-- Nodes with one id are one node. -/
theorem WellFormed.node_eq (wf : g.WellFormed) {u v : Nat} (left : g.node? u = some n)
    (right : g.node? v = some m) (same : n.id = m.id) : n = m := by
  have number := wf.node?_inj left right same
  rw [number, right] at left
  exact (Option.some.inj left).symm

/-! ### Calls between nodes -/

/-- The calls that a node makes, with the nodes they lead to, in order. -/
def callsFrom (g : Graph) (n : Node) : List (Node × Call) :=
  g.edges.toList.filterMap fun e =>
    if g.node? e.caller = some n then (g.node? e.callee).map fun m => (m, e.call) else none

theorem mem_callsFrom : (m, call) ∈ g.callsFrom n ↔
    ∃ e ∈ g.edges, g.node? e.caller = some n ∧ g.node? e.callee = some m ∧ e.call = call := by
  rw [callsFrom, List.mem_filterMap]
  refine exists_congr fun e => and_congr Array.mem_toList_iff ?_
  split
  · rename_i caller
    simp [caller]
  · rename_i other
    simp [other]

/-- Tests that agree on a list find the same. -/
theorem find?_congr {α : Type} {l : List α} {p q : α → Bool} (same : ∀ a ∈ l, p a = q a) :
    l.find? p = l.find? q := by
  rw [← List.head?_filter, ← List.head?_filter, List.filter_congr same]

/-- The first call from one node to another that passes a test. -/
def firstCall (g : Graph) (n m : Node) (p : Call → Bool) : Option Call :=
  ((g.callsFrom n).find? fun c => decide (c.1 = m) && p c.2).map (·.2)

/-- An edge is a call between two nodes that passes a test. -/
def Fits (g : Graph) (n m : Node) (p : Call → Bool) (e : Edge) : Prop :=
  g.node? e.caller = some n ∧ g.node? e.callee = some m ∧ p e.call = true

instance (p : Call → Bool) (e : Edge) : Decidable (g.Fits n m p e) :=
  inferInstanceAs (Decidable (_ ∧ _ ∧ _))

/-- The first call is that of the first edge that fits. -/
theorem firstCall_eq_find? {p : Call → Bool} : g.firstCall n m p =
    (g.edges.toList.find? fun e => decide (g.Fits n m p e)).map (·.call) := by
  have test : (fun e : Edge => (if g.node? e.caller = some n then
      (g.node? e.callee).map fun m => (m, e.call) else none).any
        fun c => decide (c.1 = m) && p c.2) = fun e => decide (g.Fits n m p e) := by
    funext e
    rw [Bool.eq_iff_iff, decide_eq_true_iff, Fits]
    by_cases caller : g.node? e.caller = some n
    · cases callee : g.node? e.callee with
      | none => simp [caller]
      | some k => by_cases same : k = m <;> simp [caller, same]
    · simp [caller]
  rw [firstCall, callsFrom, List.find?_filterMap, test]
  cases found : g.edges.toList.find? fun e => decide (g.Fits n m p e) with
  | none => rfl
  | some e =>
    have fits := List.find?_some (p := fun e => decide (g.Fits n m p e)) found
    obtain ⟨caller, callee, _⟩ := of_decide_eq_true fits
    simp [caller, callee]

/-- No earlier edge fits. -/
theorem firstCall_eq_some_iff {p : Call → Bool} : g.firstCall n m p = some call ↔
    ∃ i : Nat, ∃ e : Edge, g.edges[i]? = some e ∧ e.call = call ∧ g.Fits n m p e ∧
      ∀ (j : Nat) (e' : Edge), g.edges[j]? = some e' → g.Fits n m p e' → i ≤ j := by
  rw [firstCall_eq_find?, Option.map_eq_some_iff]
  constructor
  · rintro ⟨e, found, same⟩
    obtain ⟨fits, i, inRange, here, before⟩ := List.find?_eq_some_iff_getElem.1 found
    have listed : g.edges[i]? = some e := by
      rw [← Array.getElem?_toList, List.getElem?_eq_getElem inRange, here]
    refine ⟨i, e, listed, same, of_decide_eq_true fits, fun j e' there fits' => ?_⟩
    by_contra earlier
    have earlier : j < i := Nat.lt_of_not_le earlier
    rw [← Array.getElem?_toList] at there
    have other := before j earlier
    rw [(List.getElem?_eq_some_iff.1 there).2, Bool.not_eq_true', decide_eq_false_iff_not] at other
    exact other fits'
  · rintro ⟨i, e, here, same, fits, least⟩
    rw [← Array.getElem?_toList] at here
    obtain ⟨inRange, here⟩ := List.getElem?_eq_some_iff.1 here
    refine ⟨e, List.find?_eq_some_iff_getElem.2
      ⟨decide_eq_true fits, i, inRange, here, fun j earlier => ?_⟩, same⟩
    rw [Bool.not_eq_true', decide_eq_false_iff_not]
    intro fits'
    refine absurd (least j g.edges.toList[j] ?_ fits') (Nat.not_le_of_lt earlier)
    rw [← Array.getElem?_toList, List.getElem?_eq_getElem]

theorem mem_of_firstCall {p : Call → Bool} (first : g.firstCall n m p = some call) :
    (m, call) ∈ g.callsFrom n ∧ p call = true := by
  obtain ⟨⟨k, _⟩, found, rfl⟩ := Option.map_eq_some_iff.1 first
  obtain ⟨same, passes⟩ : k = m ∧ p _ = true := by simpa using List.find?_some found
  exact ⟨same ▸ List.mem_of_find?_eq_some found, passes⟩

theorem exists_firstCall_iff {p : Call → Bool} : (∃ call, g.firstCall n m p = some call) ↔
    ∃ call, (m, call) ∈ g.callsFrom n ∧ p call = true := by
  constructor
  · rintro ⟨call, first⟩
    exact ⟨call, mem_of_firstCall first⟩
  · rintro ⟨call, here, passes⟩
    have some : ((g.callsFrom n).find? fun c => decide (c.1 = m) && p c.2).isSome = true :=
      List.find?_isSome.2 ⟨_, here, by simpa using passes⟩
    obtain ⟨c, found⟩ := Option.isSome_iff_exists.1 some
    exact ⟨c.2, Option.map_eq_some_iff.2 ⟨c, found, rfl⟩⟩

/-! ### Calls between ids -/

/-- The calls of a graph in order, with the ids of caller and callee. -/
def namedCalls (g : Graph) : List (String × String × Call) :=
  g.edges.toList.map fun e => (g.idOf e.caller, g.idOf e.callee, e.call)

/-- The node with an id. -/
def named? (g : Graph) (id : String) : Option Node :=
  (g.find? id).bind g.node?

theorem named?_eq_some_iff (wf : g.WellFormed) {id : String} :
    g.named? id = some n ↔ (∃ v, g.node? v = some n) ∧ n.id = id := by
  rw [named?, Option.bind_eq_some_iff]
  constructor
  · rintro ⟨v, found, here⟩
    obtain ⟨_, same⟩ := (find?_eq_some_iff wf.distinct).1 found
    exact ⟨⟨v, here⟩, (idOf_of_node? here).symm.trans same⟩
  · rintro ⟨⟨v, here⟩, rfl⟩
    exact ⟨v, (find?_eq_some_iff wf.distinct).2 ⟨lt_of_node? here, idOf_of_node? here⟩, here⟩

/-- What a call between ids is for a node: a call of it, or none. -/
def readCall (g : Graph) (n : Node) (c : String × String × Call) : Option (Node × Call) :=
  if g.named? c.1 = some n then (g.named? c.2.1).map fun m => (m, c.2.2) else none

theorem readCall_eq_some_iff {c : String × String × Call} : g.readCall n c = some (m, call) ↔
    g.named? c.1 = some n ∧ g.named? c.2.1 = some m ∧ c.2.2 = call := by
  unfold readCall
  split
  · rename_i caller
    rw [and_iff_right caller]
    simp
  · rename_i other
    simp [other]

/-- The calls of a node, from the calls between ids. -/
theorem callsFrom_eq_filterMap (wf : g.WellFormed) (n : Node) :
    g.callsFrom n = g.namedCalls.filterMap (g.readCall n) := by
  rw [callsFrom, namedCalls, List.filterMap_map]
  refine List.filterMap_congr fun e here => ?_
  have named : ∀ v < g.nodes.size, g.named? (g.idOf v) = g.node? v := by
    intro v inRange
    rw [named?, (find?_eq_some_iff wf.distinct).2 ⟨inRange, rfl⟩, Option.bind_some]
  obtain ⟨left, right⟩ := wf.ends e (Array.mem_toList_iff.1 here)
  show _ = if g.named? (g.idOf e.caller) = some n then _ else none
  rw [named e.caller left, named e.callee right]

end Graph

/-! ### What a flow shows -/

namespace Flow

open CallGraph.Graph

/-- **A flow of a graph**: its links are in order, and the edge of each joins its pair. -/
structure Of (g : Graph) (f : Flow) : Prop where
  ordered : Ordered f.links
  joins : ∀ link ∈ f.links,
    ∃ e, g.edges[link.edge]? = some e ∧ e.caller = link.caller ∧ e.callee = link.callee

/-- A flow joins two nodes. -/
def Joins (g : Graph) (f : Flow) (n m : Node) : Prop :=
  ∃ link ∈ f.links, g.node? link.caller = some n ∧ g.node? link.callee = some m

/-- A flow joins two nodes by a call. -/
def Shows (g : Graph) (f : Flow) (n m : Node) (call : Call) : Prop :=
  ∃ link ∈ f.links, (g.node? link.caller = some n ∧ g.node? link.callee = some m) ∧
    ∃ e, g.edges[link.edge]? = some e ∧ e.call = call

/-- A flow has a node. -/
def Has (g : Graph) (f : Flow) (n : Node) : Prop :=
  ∃ v ∈ f.nodes, g.node? v = some n

variable {g : Graph} {f : Flow} {n m : Node} {call : Call} {edges : Nat → Nat → Set Nat}

theorem joins_iff : f.Joins g n m ↔
    ∃ u v, f.containsEdge u v = true ∧ g.node? u = some n ∧ g.node? v = some m := by
  simp only [containsEdge_iff]
  constructor
  · rintro ⟨⟨u, v, i⟩, here, ends⟩
    exact ⟨u, v, ⟨i, here⟩, ends⟩
  · rintro ⟨u, v, ⟨i, here⟩, ends⟩
    exact ⟨_, here, ends⟩

/-- The nodes of a flow are told apart by their ids. -/
theorem pairwise_id_ne (wf : g.WellFormed) (f : Flow) :
    (f.nodes.filterMap g.node?).Pairwise fun n m => n.id ≠ m.id := by
  rw [List.pairwise_filterMap]
  apply (pairwise_nodes f).imp
  intro u v smaller n atU m atV same
  exact Nat.ne_of_lt smaller (wf.node?_inj atU atV same)

/-- A flow that holds edges of a graph is a flow of it. -/
theorem Holds.of (holds : f.Holds edges) (inGraph : ∀ u v i, i ∈ edges u v →
    ∃ e, g.edges[i]? = some e ∧ e.caller = u ∧ e.callee = v) : f.Of g :=
  ⟨holds.ordered, fun _ here => inGraph _ _ _ ((holds.mem _ _ _).1 here).1⟩

/-- The ends of a link are nodes. -/
theorem Of.exists_nodes (of : f.Of g) (wf : g.WellFormed) {link : Link} (here : link ∈ f.links) :
    ∃ n m, g.node? link.caller = some n ∧ g.node? link.callee = some m := by
  obtain ⟨e, listed, caller, callee⟩ := of.joins link here
  obtain ⟨left, right⟩ := wf.ends e (Array.mem_of_getElem? listed)
  obtain ⟨n, atCaller⟩ := exists_node? (caller ▸ left)
  obtain ⟨m, atCallee⟩ := exists_node? (callee ▸ right)
  exact ⟨n, m, atCaller, atCallee⟩

/-- A flow shows one call for each pair that it joins. -/
theorem Of.joins_iff_exists_shows (of : f.Of g) : f.Joins g n m ↔ ∃ call, f.Shows g n m call := by
  constructor
  · rintro ⟨link, here, ends⟩
    obtain ⟨e, listed, _⟩ := of.joins link here
    exact ⟨e.call, link, here, ends, e, listed, rfl⟩
  · rintro ⟨_, link, here, ends, _⟩
    exact ⟨link, here, ends⟩

/-- The nodes that a flow has are those that it joins. -/
theorem Of.has_iff (of : f.Of g) (wf : g.WellFormed) :
    f.Has g n ↔ ∃ m, f.Joins g n m ∨ f.Joins g m n := by
  constructor
  · rintro ⟨v, here, atV⟩
    obtain ⟨link, listed, ends⟩ := mem_nodes.1 here
    obtain ⟨a, b, caller, callee⟩ := of.exists_nodes wf listed
    rcases ends with rfl | rfl
    · rw [atV] at caller
      cases caller
      exact ⟨b, Or.inl ⟨link, listed, atV, callee⟩⟩
    · rw [atV] at callee
      cases callee
      exact ⟨a, Or.inr ⟨link, listed, caller, atV⟩⟩
  · rintro ⟨m, ⟨link, listed, caller, _⟩ | ⟨link, listed, _, callee⟩⟩
    · exact ⟨_, mem_nodes.2 ⟨link, listed, Or.inl rfl⟩, caller⟩
    · exact ⟨_, mem_nodes.2 ⟨link, listed, Or.inr rfl⟩, callee⟩

/-- The numbers of its nodes are numbers of nodes. -/
theorem Of.exists_node (of : f.Of g) (wf : g.WellFormed) {v : Nat} (here : v ∈ f.nodes) :
    ∃ n, g.node? v = some n := by
  obtain ⟨link, listed, ends⟩ := mem_nodes.1 here
  obtain ⟨a, b, caller, callee⟩ := of.exists_nodes wf listed
  rcases ends with rfl | rfl
  · exact ⟨a, caller⟩
  · exact ⟨b, callee⟩

/-- Links in order are told apart by their pairs. -/
theorem Ordered.eq_of_samePair {links : List Link} (ordered : Ordered links) {a b : Link}
    (first : a ∈ links) (second : b ∈ links) (same : a.samePair b = true) : a = b := by
  induction links with
  | nil => cases first
  | cons link rest hyp =>
    obtain ⟨before, later⟩ := List.pairwise_cons.1 ordered
    rcases List.mem_cons.1 first with rfl | aInRest <;>
      rcases List.mem_cons.1 second with rfl | bInRest
    · rfl
    · exact absurd (Link.samePair_comm.1 same) (Link.not_samePair_of_before (before b bInRest))
    · exact absurd same (Link.not_samePair_of_before (before a aInRest))
    · exact hyp later aInRest bInRest

theorem Shows.call_unique (of : f.Of g) (wf : g.WellFormed) {other : Call}
    (shown : f.Shows g n m call) (also : f.Shows g n m other) : call = other := by
  obtain ⟨a, first, ⟨caller, callee⟩, e, listed, rfl⟩ := shown
  obtain ⟨b, second, ⟨caller', callee'⟩, e', listed', rfl⟩ := also
  have same : a.samePair b = true :=
    Link.samePair_iff.2 ⟨wf.node?_inj caller caller' rfl, wf.node?_inj callee callee' rfl⟩
  rw [of.ordered.eq_of_samePair first second same, listed'] at listed
  rw [Option.some.inj listed]

end Flow

/-! ### What a filter without a focus looks at -/

/-- The verdict on a call between two nodes. -/
def FilterConfig.keeps (c : FilterConfig) (n m : Node) (call : Call) : Bool :=
  Filter.passes ⟨{ nodes := #[n, m] }, c, none⟩ ⟨0, 1, call⟩

namespace Filter

open CallGraph.Graph

variable {f : Filter} {n m : Node}

/-- **The verdict of a filter without a focus** hangs on the two nodes and the call. -/
theorem passes_eq_keeps (unfocused : f.focus = none) {e : Edge}
    (caller : f.graph.node? e.caller = some n) (callee : f.graph.node? e.callee = some m) :
    f.passes e = f.config.keeps n m e.call := by
  have left : Graph.node? { nodes := #[n, m] } 0 = some n := rfl
  have right : Graph.node? { nodes := #[n, m] } 1 = some m := rfl
  unfold FilterConfig.keeps passes verdict isSyntheticEdge judge
  simp only [caller, callee, left, right, unfocused, Option.any_none]

/-- What is kept is kept for the two nodes, if the call itself is not synthetic. -/
theorem keeps_eq (c : FilterConfig) (n m : Node) (call : Call) :
    c.keeps n m call = (!call.synthetic && c.keeps n m {}) := by
  have left : Graph.node? { nodes := #[n, m] } 0 = some n := rfl
  have right : Graph.node? { nodes := #[n, m] } 1 = some m := rfl
  unfold FilterConfig.keeps passes verdict isSyntheticEdge judge
  simp only [left, right]
  cases call.synthetic <;> simp

end Filter

/-! ### What near calls show -/

namespace Flow

open CallGraph.Graph

variable {g : Graph} {flow : Flow} {f : Filter} {near : Nat → Nat → Prop} {n m : Node} {call : Call}

/-- A flow that holds the near calls that a filter passes is a flow of the graph of the filter. -/
theorem Holds.of_numbersOf (holds : flow.Holds fun u v => {i | i ∈ f.numbersOf u v ∧ near u v}) :
    flow.Of f.graph := by
  refine holds.of fun u v i here => ?_
  obtain ⟨⟨e, passing, caller, callee⟩, _⟩ := here
  exact ⟨e, (Filter.mem_passing.1 passing).1, caller, callee⟩

/-- **What it shows of two nodes**: the first call between them that the filter passes, if they are
near. -/
theorem Holds.shows_iff_passes (holds : flow.Holds fun u v => {i | i ∈ f.numbersOf u v ∧ near u v})
    (wf : f.graph.WellFormed) :
    flow.Shows f.graph n m call ↔ ∃ u v, (f.graph.node? u = some n ∧ f.graph.node? v = some m) ∧
      near u v ∧ f.graph.firstCall n m (fun call => f.passes ⟨u, v, call⟩) = some call := by
  -- The numbers that compete for a pair are those of the calls between its nodes that pass.
  have competes : ∀ {u v i : Nat}, f.graph.node? u = some n → f.graph.node? v = some m →
      (i ∈ f.numbersOf u v ↔ ∃ e, f.graph.edges[i]? = some e ∧
        f.graph.Fits n m (fun call => f.passes ⟨u, v, call⟩) e) := by
    intro u v i atU atV
    constructor
    · rintro ⟨e, passing, rfl, rfl⟩
      obtain ⟨listed, passes⟩ := Filter.mem_passing.1 passing
      exact ⟨e, listed, atU, atV, passes⟩
    · rintro ⟨e, listed, caller, callee, passes⟩
      obtain rfl := wf.node?_inj caller atU rfl
      obtain rfl := wf.node?_inj callee atV rfl
      exact ⟨e, Filter.mem_passing.2 ⟨listed, passes⟩, rfl, rfl⟩
  constructor
  · rintro ⟨⟨u, v, i⟩, here, ⟨atU, atV⟩, e, listed, rfl⟩
    obtain ⟨⟨number, close⟩, least⟩ := (holds.mem u v i).1 here
    obtain ⟨e', listed', kept⟩ := (competes atU atV).1 number
    rw [listed] at listed'
    obtain rfl := Option.some.inj listed'
    refine ⟨u, v, ⟨atU, atV⟩, close, firstCall_eq_some_iff.2 ⟨i, e, listed, rfl, kept, ?_⟩⟩
    exact fun j e' there kept' => least ⟨(competes atU atV).2 ⟨e', there, kept'⟩, close⟩
  · rintro ⟨u, v, ⟨atU, atV⟩, close, first⟩
    obtain ⟨i, e, listed, rfl, kept, before⟩ := firstCall_eq_some_iff.1 first
    refine ⟨⟨u, v, i⟩, (holds.mem u v i).2 ⟨⟨?_, close⟩, fun j other => ?_⟩, ⟨atU, atV⟩, e, listed,
      rfl⟩
    · exact (competes atU atV).2 ⟨e, listed, kept⟩
    · obtain ⟨e', there, kept'⟩ := (competes atU atV).1 other.1
      exact before j e' there kept'

/-- Without a focus it is the first call that is kept for the two nodes. -/
theorem Holds.shows_iff (holds : flow.Holds fun u v => {i | i ∈ f.numbersOf u v ∧ near u v})
    (wf : f.graph.WellFormed) (unfocused : f.focus = none) :
    flow.Shows f.graph n m call ↔ ∃ u v, (f.graph.node? u = some n ∧ f.graph.node? v = some m) ∧
      near u v ∧ f.graph.firstCall n m (f.config.keeps n m) = some call := by
  rw [holds.shows_iff_passes wf]
  refine exists₂_congr fun u v => and_congr_right fun ⟨atU, atV⟩ => ?_
  have verdicts : (fun call => f.passes ⟨u, v, call⟩) = f.config.keeps n m :=
    funext fun call => Filter.passes_eq_keeps unfocused atU atV
  rw [verdicts]

end Flow

/-! ### Paths in graphs that say the same -/

/-- **Paths lead on in another graph** that has an arc for each of the first, between the same
records. -/
theorem Leads.carry {g g' : Graph} (wf : g'.WellFormed) {arc arc' : Nat → Nat → Prop}
    (ends : ∀ u v, arc u v → ∃ n m, g.node? u = some n ∧ g.node? v = some m ∧
      ∃ u' v', g'.node? u' = some n ∧ g'.node? v' = some m ∧ arc' u' v')
    {k u v u' : Nat} {n : Node} (path : Leads arc (fun _ => 1) u k v) (first : g.node? u = some n)
    (first' : g'.node? u' = some n) :
    ∃ m v', g.node? v = some m ∧ g'.node? v' = some m ∧ Leads arc' (fun _ => 1) u' k v' := by
  induction path with
  | here => exact ⟨n, u', first, first', .here⟩
  | @hop k v w _ step hyp =>
    obtain ⟨m, v', atV, atV', before⟩ := hyp
    obtain ⟨a, b, atA, atW, a', w', atA', atW', step'⟩ := ends v w step
    rw [atV] at atA
    obtain rfl := Option.some.inj atA
    obtain rfl := wf.node?_inj atA' atV' rfl
    exact ⟨b, w', atW, atW', .hop before step'⟩

/-- **Nothing is farther away in another graph** that has the same arcs and more, and roots with the
same records. -/
theorem hops_le_hops {g g' : Graph} (wf : g'.WellFormed) {arc arc' : Nat → Nat → Prop}
    (ends : ∀ u v, arc u v → ∃ n m, g.node? u = some n ∧ g.node? v = some m ∧
      ∃ u' v', g'.node? u' = some n ∧ g'.node? v' = some m ∧ arc' u' v')
    {roots roots' : List Nat} (start : ∀ r ∈ roots, ∃ n, g.node? r = some n ∧
      ∃ r' ∈ roots', g'.node? r' = some n)
    {v v' : Nat} {m : Node} (atV : g.node? v = some m) (atV' : g'.node? v' = some m) :
    hops arc' roots' v' ≤ hops arc roots v := by
  refine le_iInf fun k => le_iInf fun found => ?_
  obtain ⟨r, root, path⟩ := found
  obtain ⟨n, atR, r', root', atR'⟩ := start r root
  obtain ⟨a, w, atA, atW, path'⟩ := Leads.carry wf ends path atR atR'
  rw [atV] at atA
  obtain rfl := Option.some.inj atA
  obtain rfl := wf.node?_inj atW atV' rfl
  exact distance_le root' path'

end CallGraph
