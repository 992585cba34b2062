import CallGraph.Access
import CallGraph.Proofs.Everywhere
import CallGraph.Proofs.Operations
import CallGraph.Proofs.Totality

/-!
**The steps of a query find what they look for.**

The theory of `Access`. In a linked store every edge that is listed at a node is there, its ends are
nodes, and the queue of a search holds nothing but nodes, so no step on the way of a query goes wrong,
and what comes out is what comes out without looking.

* `Loop.run_mayFail` — a loop whose invariant keeps its steps from failing;
* `Store.Linked` — the stores whose edges are where they should be;
* `verdict?_eq` — verdicts, `search?_eq` — searches, with the invariant `Searched`;
* `measure?_eq`, `toward?_eq`, `selectWhole?_eq` — the queries.
-/

namespace CallGraph

/-! ### Loops -/

/-- **A loop whose steps do not fail** as long as something holds that they keep. -/
theorem Loop.run_mayFail {State : Type} {l : Loop State} {step? : State → Option State}
    {rank : State → Nat}
    {lower : ∀ s s', l.finished s = false → step? s = some s' → rank s' < rank s}
    {holds : State → Prop}
    (step : ∀ s, l.finished s = false → holds s → step? s = some (l.step s))
    (kept : ∀ s, l.finished s = false → holds s → holds (l.step s)) {s : State} (here : holds s) :
    (Loop.mayFail l.finished step? rank lower).run (some s) = some (l.run s) := by
  induction s using Loop.run.induct l with
  | case1 s done =>
    rw [l.run_of_finished done]
    exact Loop.run_of_finished _ done
  | case2 s going hyp =>
    have going := Bool.eq_false_iff.2 going
    have next : (some s).bind step? = some (l.step s) := step s going here
    rw [l.run_of_going going, ← hyp (kept s going here), ← next]
    exact Loop.run_of_going _ going

/-! ### Stores -/

/-- **A linked store**: its edges join nodes and are listed at both of them. -/
structure Store.Linked (s : Store) : Prop where
  ends : ∀ e ∈ s.edges, e.caller < s.slots.size ∧ e.callee < s.slots.size
  leaving : ∀ v, (s.leaving v).reverse = s.graph.numbersOf (·.caller == v)
  entering : ∀ v, (s.entering v).reverse = s.graph.numbersOf (·.callee == v)

theorem Store.InStep.linked {s : Store} (inStep : s.InStep) : s.Linked :=
  ⟨inStep.ends, inStep.leaving, inStep.entering⟩

namespace Access

open Program.Positions (filter? filter?_eq)
open Search (Searched)

/-! ### Lists of steps -/

section

variable {α β : Type} {xs : List α}

theorem mapM_eq_map {f : α → Option β} {h : α → β} (known : ∀ a ∈ xs, f a = some (h a)) :
    xs.mapM f = some (xs.map h) := by
  induction xs with
  | nil => rfl
  | cons a rest hyp =>
    obtain ⟨first, others⟩ := List.forall_mem_cons.1 known
    rw [List.mapM_cons, first, hyp others]
    rfl

/-- What is found one after another, if everything is found. -/
theorem mapM_eq_filterMap {f : α → Option β} (found : ∀ a ∈ xs, ∃ b, f a = some b) :
    xs.mapM f = some (xs.filterMap f) := by
  induction xs with
  | nil => rfl
  | cons a rest hyp =>
    obtain ⟨⟨b, first⟩, others⟩ := List.forall_mem_cons.1 found
    rw [List.mapM_cons, List.filterMap_cons, first, hyp others]
    rfl

theorem anyM_eq {test : α → Option Bool} {passes : α → Bool}
    (known : ∀ a ∈ xs, test a = some (passes a)) : xs.anyM test = some (xs.any passes) := by
  induction xs with
  | nil => rfl
  | cons a rest hyp =>
    obtain ⟨first, others⟩ := List.forall_mem_cons.1 known
    rw [List.anyM, first, List.any_cons]
    cases passes a with
    | true => rfl
    | false => exact hyp others

end

variable {s : Store} (linked : s.Linked)

/-! ### Nodes and edges -/

theorem node?_eq (s : Store) (v : Nat) : node? s v = s.graph.node? v :=
  Array.getElem?_map.symm

theorem exists_node? {v : Nat} (inRange : v < s.slots.size) : ∃ n, s.graph.node? v = some n :=
  Graph.exists_node? (s.size_graph.symm ▸ inRange)

/-- The edges with the numbers at a node are there. -/
theorem listed?_eq {numbers : List Nat} {p : Edge → Bool}
    (known : numbers.reverse = s.graph.numbersOf p) :
    listed? s numbers = some (s.graph.numberedEdges.filter fun x => p x.1) := by
  rw [← Store.listed_eq known]
  refine mapM_eq_filterMap fun i here => ?_
  rw [List.mem_mergeSort, ← List.mem_reverse, known, Graph.numbersOf, List.mem_map] at here
  obtain ⟨⟨e, j⟩, listed, rfl⟩ := here
  have there := List.mem_zipIdx_iff_getElem?.1 (List.mem_filter.1 listed).1
  rw [Array.getElem?_toList] at there
  exact ⟨(e, j), congrArg (Option.map fun e => (e, j)) there⟩

include linked

theorem outgoing?_eq {v : Nat} (inRange : v < s.slots.size) :
    outgoing? s v = some (s.graph.outgoing v) := by
  have slot := Array.getElem?_eq_getElem inRange
  have numbers : s.leaving v = s.slots[v].leaving := by
    rw [Store.leaving, slot]
    rfl
  rw [outgoing?, slot]
  exact listed?_eq (numbers ▸ linked.leaving v)

theorem incoming?_eq {v : Nat} (inRange : v < s.slots.size) :
    incoming? s v = some (s.graph.incoming v) := by
  have slot := Array.getElem?_eq_getElem inRange
  have numbers : s.entering v = s.slots[v].entering := by
    rw [Store.entering, slot]
    rfl
  rw [incoming?, slot]
  exact listed?_eq (numbers ▸ linked.entering v)

theorem calleesOf?_eq {v : Nat} (inRange : v < s.slots.size) :
    calleesOf? s v = some (s.graph.calleesOf v) := by
  rw [calleesOf?, outgoing?_eq linked inRange]
  rfl

/-- The ends of an edge are nodes. -/
theorem ends_of_getElem? {e : Edge} {i : Nat} (here : s.graph.edges[i]? = some e) :
    e.caller < s.slots.size ∧ e.callee < s.slots.size :=
  linked.ends e (Array.mem_of_getElem? here)

theorem ends_of_outgoing {v : Nat} {x : Edge × Nat} (here : x ∈ s.graph.outgoing v) :
    x.1.caller < s.slots.size ∧ x.1.callee < s.slots.size :=
  ends_of_getElem? linked (Graph.mem_outgoing.1 here).1

theorem ends_of_incoming {v : Nat} {x : Edge × Nat} (here : x ∈ s.graph.incoming v) :
    x.1.caller < s.slots.size ∧ x.1.callee < s.slots.size :=
  ends_of_getElem? linked (Graph.mem_incoming.1 here).1

theorem lt_of_mem_calleesOf {v w : Nat} (here : w ∈ s.graph.calleesOf v) : w < s.slots.size := by
  obtain ⟨x, listed, rfl⟩ := List.mem_map.1 here
  exact (ends_of_outgoing linked listed).2

/-- The edges of a graph, node by node. -/
theorem mem_flatMap_outgoing {x : Edge × Nat} :
    x ∈ (List.range s.slots.size).flatMap s.graph.outgoing ↔ x ∈ s.graph.numberedEdges := by
  obtain ⟨e, i⟩ := x
  rw [Graph.numberedEdges, List.mem_zipIdx_iff_getElem?, Array.getElem?_toList, List.mem_flatMap]
  constructor
  · rintro ⟨v, _, here⟩
    exact (Graph.mem_outgoing.1 here).1
  · intro here
    have ends := ends_of_getElem? linked here
    exact ⟨e.caller, List.mem_range.2 ends.1, Graph.mem_outgoing.2 ⟨here, rfl⟩⟩

omit linked

/-! ### Verdicts -/

section

variable {e : Edge} (ends : e.caller < s.slots.size ∧ e.callee < s.slots.size)

include ends

theorem isSyntheticEdge?_eq : isSyntheticEdge? s e = some (s.graph.isSyntheticEdge e) := by
  obtain ⟨n, caller⟩ := exists_node? ends.1
  obtain ⟨m, callee⟩ := exists_node? ends.2
  unfold isSyntheticEdge? Graph.isSyntheticEdge
  rw [node?_eq, node?_eq, caller, callee]
  rfl

/-- Whether a call touches a module is seen at one of its ends. -/
theorem touches?_eq {v : Nat} (inRange : v < s.slots.size) (f : Filter) (same : f.graph = s.graph)
    (module : String) :
    touches? s module e v = some (!f.graph.isSyntheticEdge e && f.liesIn module v) := by
  obtain ⟨n, here⟩ := exists_node? inRange
  unfold touches? Filter.liesIn
  rw [isSyntheticEdge?_eq ends, node?_eq, same, here]
  cases s.graph.isSyntheticEdge e <;> rfl

end

/-- The focus is the last stage of a verdict. -/
theorem judge_eq (f : Filter) (e : Edge) (caller callee : Node) (callerPath calleePath : String) :
    f.judge e caller callee callerPath calleePath =
      (early f.config e caller callee callerPath calleePath).or
        (if f.focus.any fun module => !f.inFocus module e then some .outOfFocus else none) := by
  unfold early Filter.judge
  dsimp only
  split
  · rfl
  split
  · rfl
  split
  · rfl
  split
  · rfl
  split
  · rfl
  · rfl

section

variable (f : Filter) (same : f.graph = s.graph) {e : Edge}

include linked same

theorem inFocus?_eq {caller callee : Node} {callerPath calleePath : String}
    (ends : e.caller < s.slots.size ∧ e.callee < s.slots.size)
    (atCaller : s.graph.node? e.caller = some caller) (atCallee : s.graph.node? e.callee = some callee)
    (left : caller.modulePath = some callerPath) (right : callee.modulePath = some calleePath)
    (module : String) :
    inFocus? s module e callerPath calleePath = some (f.inFocus module e) := by
  have calls : (s.graph.incoming e.caller).anyM (fun x => touches? s module x.1 x.1.caller) =
      some (f.calledFrom module e.caller) := by
    rw [Filter.calledFrom, same]
    refine anyM_eq fun x here => ?_
    have inRange := ends_of_incoming linked here
    rw [touches?_eq inRange inRange.1 f same, same]
  have back : (s.graph.outgoing e.callee).anyM (fun x => touches? s module x.1 x.1.callee) =
      some (f.callsInto module e.callee) := by
    rw [Filter.callsInto, same]
    refine anyM_eq fun x here => ?_
    have inRange := ends_of_outgoing linked here
    rw [touches?_eq inRange inRange.2 f same, same]
  have first : f.liesIn module e.caller = decide (callerPath = module) := by
    rw [Filter.liesIn, same, atCaller, Option.bind_some, left]
    rfl
  have second : f.liesIn module e.callee = decide (calleePath = module) := by
    rw [Filter.liesIn, same, atCallee, Option.bind_some, right]
    rfl
  unfold inFocus? Filter.inFocus
  rw [first, second]
  by_cases inside : callerPath = module ∨ calleePath = module
  · rw [if_pos inside]
    simp [inside]
  · rw [if_neg inside, incoming?_eq linked ends.1, outgoing?_eq linked ends.2]
    have apart := not_or.1 inside
    rw [decide_eq_false apart.1, decide_eq_false apart.2]
    dsimp only [Option.bind_eq_bind, Option.bind_some]
    rw [calls, back]
    cases f.calledFrom module e.caller <;> rfl

/-- **A verdict looks at nodes and edges that are there**, whatever call it is about. -/
theorem verdict?_eq (e : Edge) : verdict? s f.config f.focus e = some (f.verdict e) := by
  unfold verdict? Filter.verdict
  rw [same]
  by_cases ends : e.caller < s.slots.size ∧ e.callee < s.slots.size
  · obtain ⟨caller, atCaller⟩ := exists_node? ends.1
    obtain ⟨callee, atCallee⟩ := exists_node? ends.2
    rw [if_pos (by simpa using ends), isSyntheticEdge?_eq ends, node?_eq, node?_eq, atCaller, atCallee]
    dsimp only [Option.bind_eq_bind, Option.bind_some]
    split
    · rfl
    cases left : caller.modulePath with
    | none => rfl
    | some callerPath =>
      cases right : callee.modulePath with
      | none => rfl
      | some calleePath =>
        dsimp only
        rw [judge_eq]
        unfold judge?
        cases early f.config e caller callee callerPath calleePath with
        | some reason => rfl
        | none =>
          cases f.focus with
          | none => rfl
          | some module =>
            dsimp only
            rw [inFocus?_eq linked f same ends atCaller atCallee left right]
            cases known : f.inFocus module e <;> simp [known]
  · rw [if_neg (by simpa using ends)]
    split
    · rename_i caller callee atCaller atCallee
      have left := Graph.lt_of_node? atCaller
      have right := Graph.lt_of_node? atCallee
      rw [s.size_graph] at left right
      exact absurd ⟨left, right⟩ ends
    · rfl

theorem passes?_eq (e : Edge) : passes? s f.config f.focus e = some (f.passes e) := by
  rw [passes?, verdict?_eq linked f same]
  rfl

end

/-! ### Searches -/

section

variable {n : Nat} {next? : Nat → Option (List Nat)} {next : Nat → List Nat} {limit : Option Nat}
  {roots : List Nat}

/-- To come to nodes that there are is to come to them. -/
theorem foldlM_see? {hops : Nat} {vs : List Nat} {t : Search}
    (inRange : ∀ v ∈ vs, v < t.distances.size) :
    vs.foldlM (see? hops) t = some (vs.foldl (Search.see hops) t) := by
  induction vs generalizing t with
  | nil => rfl
  | cons v rest hyp =>
    obtain ⟨first, others⟩ := List.forall_mem_cons.1 inRange
    obtain ⟨_, came⟩ := Search.came_foldl_see hops [v] t
    rw [List.foldlM_cons, see?_of_lt first]
    exact hyp fun w here => (others w here).trans_eq came.size.symm

/-- A search that comes to numbers of no nodes passes them over. -/
theorem foldl_see_filter {hops : Nat} {vs : List Nat} {t : Search} (size : t.distances.size = n) :
    (vs.filter (· < n)).foldl (Search.see hops) t = vs.foldl (Search.see hops) t := by
  induction vs generalizing t with
  | nil => rfl
  | cons v rest hyp =>
    obtain ⟨_, came⟩ := Search.came_foldl_see hops [v] t
    have later := hyp (came.size.trans size)
    by_cases inRange : v < n
    · rw [List.filter_cons, if_pos (decide_eq_true inRange)]
      exact later
    · have passed : t.see hops v = t := by
        unfold Search.see
        rw [Array.getElem?_eq_none (by omega), if_neg (by simp)]
      rw [List.filter_cons, if_neg (by simpa using inRange), List.foldl_cons, passed]
      exact hyp size

variable (known : ∀ v < n, next? v = some (next v)) (closed : ∀ v < n, ∀ w ∈ next v, w < n)

include known closed

/-- A step of a search finds the node that waits, what comes after it, and their entries. -/
theorem advance?_eq {t : Search} (searched : Searched n next limit roots t) :
    advance? next? limit t = some (t.advance next limit) := by
  unfold advance? Search.advance
  cases waiting : t.queue with
  | nil => rfl
  | cons first rest =>
    obtain ⟨v, hops⟩ := first
    have here := searched.queued v hops (waiting ▸ List.mem_cons_self)
    have inRange : v < n := searched.size ▸ Distances.lt_size_of_get here
    dsimp only
    by_cases near : limit.all (hops < ·) = true
    · rw [if_pos near, if_pos near, known v inRange]
      exact foldlM_see? fun w ahead => (closed v inRange w ahead).trans_eq searched.size.symm
    · rw [if_neg near, if_neg near]

/-- **A search among nodes stays among them.** -/
theorem search?_eq (limit : Option Nat) (roots : List Nat) :
    search? n next? limit roots = some (search n next limit roots) := by
  have size : (Array.replicate n (none : Option Nat)).size = n := Array.size_replicate
  have start : (roots.filter (· < n)).foldlM (see? 0) ⟨Array.replicate n none, [], []⟩ =
      some (Search.start n roots) := by
    rw [Search.start, ← foldl_see_filter (t := ⟨Array.replicate n none, [], []⟩) size]
    refine foldlM_see? fun v here => ?_
    rw [size]
    exact of_decide_eq_true (List.mem_filter.1 here).2
  rw [search?, start]
  exact Loop.run_mayFail (l := Search.loop next limit)
    (fun _ _ searched => advance?_eq known closed searched)
    (fun _ _ searched => Search.searched_advance searched)
    (Search.searched_start n next limit roots)

end

include linked

/-- **A measurement stays in range**, whatever numbers its roots are. -/
theorem measure?_eq (roots : List Nat) (bound : Nat) (interrupt : Interrupt) :
    measure? s roots bound interrupt =
      some (DepthMap.measure s.graph roots bound interrupt).run.value := by
  have found : search? s.slots.size (calleesOf? s) (some bound) roots =
      some (search s.graph.nodes.size s.graph.calleesOf (some bound) roots) := by
    rw [s.size_graph]
    exact search?_eq (fun v inRange => calleesOf?_eq linked inRange)
      (fun v _ w here => lt_of_mem_calleesOf linked here) _ _
  have nodes : roots.any (· < s.slots.size) = roots.any s.graph.contains := by
    unfold Graph.contains
    rw [s.size_graph]
  unfold measure? DepthMap.measure
  rw [found, nodes]
  by_cases some : roots.any s.graph.contains = true
  · rw [if_pos some, if_pos some]
    cases interrupt.tripped? <;> rfl
  · rw [if_neg some, if_neg some]
    rfl

/-! ### Walks -/

section

variable (f : Filter) (same : f.graph = s.graph)

include same

theorem callsAt?_eq (forward : Bool) {v : Nat} (inRange : v < s.slots.size) :
    callsAt? s f.config f.focus forward v = some (Walk.callsAt f forward v) := by
  have passing : ∀ calls : List (Edge × Nat),
      filter? (fun x => passes? s f.config f.focus x.1) calls =
        some (calls.filter fun x => f.passes x.1) :=
    fun calls => filter?_eq fun x _ => passes?_eq linked f same x.1
  unfold callsAt? Walk.callsAt
  rw [same]
  cases forward with
  | true =>
    rw [if_pos rfl, if_pos rfl, outgoing?_eq linked inRange]
    exact passing _
  | false =>
    rw [if_neg Bool.false_ne_true, if_neg Bool.false_ne_true, incoming?_eq linked inRange]
    exact passing _

/-- A walk leads from nodes to nodes. -/
theorem lt_of_mem_next {forward : Bool} {v w : Nat} (here : w ∈ Walk.next f forward v) :
    w < s.slots.size := by
  obtain ⟨x, calls, rfl⟩ := List.mem_map.1 here
  have ends : x.1.caller < s.slots.size ∧ x.1.callee < s.slots.size := by
    have passing := Filter.mem_passing.1 (Walk.mem_callsAt.1 calls).1
    exact ends_of_getElem? linked (same ▸ passing.1)
  cases forward with
  | true => exact ends.2
  | false => exact ends.1

theorem found?_eq (forward : Bool) (bound start : Nat) :
    found? s f.config f.focus forward bound start = some (Walk.found f forward bound start) := by
  have size : f.graph.nodes.size = s.slots.size := same ▸ s.size_graph
  have searched : search? s.slots.size (next? s f.config f.focus forward) (Walk.limit bound) [start] =
      some (Walk.searchFrom f forward bound start) := by
    rw [Walk.searchFrom, size]
    refine search?_eq (fun v inRange => ?_) (fun v _ w here => lt_of_mem_next linked f same here) _ _
    rw [next?, callsAt?_eq linked f same forward inRange]
    rfl
  have parts : (Walk.searchFrom f forward bound start).expanded.reverse.mapM
      (callsAt? s f.config f.focus forward) =
        some ((Walk.searchFrom f forward bound start).expanded.reverse.map
          (Walk.callsAt f forward)) := by
    refine mapM_eq_map fun v here => callsAt?_eq linked f same forward ?_
    obtain ⟨d, found, _⟩ := mem_expanded_iff.1 (List.mem_reverse.1 here)
    exact (Distances.lt_size_of_get found).trans_eq ((searched_search _ _ _ _).size.trans size)
  rw [found?, searched]
  dsimp only [Option.bind_eq_bind, Option.bind_some]
  rw [parts]
  rfl

theorem along?_eq (forward : Bool) (bound start : Nat) (interrupt : Interrupt) :
    along? s f.config f.focus forward bound start interrupt =
      some (Walk.along f forward bound start interrupt) := by
  unfold along? Walk.along Graph.contains
  rw [same, s.size_graph]
  by_cases inRange : start < s.slots.size
  · rw [if_pos inRange, if_pos (decide_eq_true inRange), found?_eq linked f same]
    cases interrupt.tripped? <;> rfl
  · rw [if_neg inRange, if_neg (by simpa using inRange)]

/-- **A walk stays in range**, wherever it starts. -/
theorem toward?_eq (direction : Direction) (bound start : Nat) (interrupt : Interrupt) :
    toward? s f.config f.focus direction bound start interrupt =
      some (Walk.toward f direction bound start interrupt) := by
  have ways := fun forward => along?_eq linked f same forward bound start interrupt
  cases direction with
  | callees => exact ways true
  | callers => exact ways false
  | both =>
    rw [toward?, ways, ways]
    rfl

/-- **A report of a walk is in range exactly if its start is a node.** -/
theorem run?_eq (direction : Direction) (bound start : Nat) (interrupt : Interrupt) :
    run? s f.config f.focus direction bound start interrupt =
      if start < s.slots.size then some (Walk.toward f direction bound start interrupt) else none := by
  rw [run?, toward?_eq linked f same, node?_eq]
  dsimp only [Option.bind_eq_bind, Option.bind_some]
  by_cases inRange : start < s.slots.size
  · obtain ⟨n, here⟩ := exists_node? inRange
    rw [if_pos inRange, here]
    cases Walk.toward f direction bound start interrupt <;> rfl
  · have unknown : f.graph.contains start = false := by
      rw [same, Graph.contains, s.size_graph]
      exact decide_eq_false inRange
    rw [if_neg inRange, Walk.toward_of_unknown unknown, Graph.node?,
      Array.getElem?_eq_none (by rw [s.size_graph]; omega)]
    rfl

/-! ### Whole graphs -/

/-- **A selection stays in range**, and it does not matter that it goes from node to node. -/
theorem selectWhole?_eq (depth : Option DepthMap) (interrupt : Interrupt) :
    selectWhole? s f.config f.focus depth interrupt =
      some (selectWhole s.graph f depth interrupt).run.value := by
  have calls : (List.range s.slots.size).mapM (outgoing? s) =
      some ((List.range s.slots.size).map s.graph.outgoing) :=
    mapM_eq_map fun v here => outgoing?_eq linked (List.mem_range.1 here)
  have passing : ∀ calls : List (Edge × Nat),
      filter? (fun x => passes? s f.config f.focus x.1) calls =
        some (calls.filter fun x => f.passes x.1) :=
    fun calls => filter?_eq fun x _ => passes?_eq linked f same x.1
  rw [value_selectWhole, selectWhole?, s.size_graph]
  cases if 0 < s.slots.size then interrupt.tripped? else none with
  | some cause => rfl
  | none =>
    dsimp only
    rw [calls]
    dsimp only [Option.bind_eq_bind, Option.bind_some]
    rw [passing, ← List.flatMap_def]
    -- A flow does not show in which order its edges were added.
    refine congrArg (fun flow => some (Except.ok flow)) ?_
    refine ((Flow.holds_ofEdges _).congr fun u v i => ?_).unique (Flow.holds_ofEdges _)
    simp only [Set.mem_ofPred_eq, List.mem_filter, mem_flatMap_outgoing linked]

end

end Access

end CallGraph
