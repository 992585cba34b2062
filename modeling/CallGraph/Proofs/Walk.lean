import CallGraph.Proofs.Flow
import CallGraph.Proofs.Search
import CallGraph.Walk
import CallGraph.Word

/-!
**A walk from a symbol finds the calls in reach, and nothing else.**

The theory of `Walk`. The search that a walk makes goes along the passing calls of a graph, in one of
two directions; what it finds are the passing calls at the nodes that lie closer to its start than
its bound.

* `Within` — closer than a bound, of which 0 is none;
* `hop_next_down`, `hop_next_up` — the arcs of the two searches;
* `holds_along` — what one walk selects;
* `run_selects` — what a walk in each of the three directions selects, and how it ends.
-/

namespace CallGraph

/-- A finite distance, below a bound. A bound of 0 is none. -/
def Within (bound : Nat) (d : ℕ∞) : Prop :=
  d < ⊤ ∧ (0 < bound → d < bound)

namespace Filter

/-- The ends of a passing edge are nodes. -/
theorem lt_of_passes {f : Filter} {e : Edge} (passes : f.passes e = true) :
    e.caller < f.graph.nodes.size ∧ e.callee < f.graph.nodes.size := by
  unfold Filter.passes verdict at passes
  split at passes
  · rename_i caller callee atCaller atCallee
    exact ⟨(Array.getElem?_eq_some_iff.1 atCaller).1, (Array.getElem?_eq_some_iff.1 atCallee).1⟩
  · cases passes

theorem passing_iff {f : Filter} {u v : Nat} :
    f.Passing u v ↔ ∃ e i, (e, i) ∈ f.passing ∧ e.caller = u ∧ e.callee = v :=
  exists_comm

/-- The ends of a pair of which an edge passes are nodes. -/
theorem Passing.lt {f : Filter} {u v : Nat} (arc : f.Passing u v) :
    u < f.graph.nodes.size ∧ v < f.graph.nodes.size := by
  obtain ⟨e, i, here, rfl, rfl⟩ := passing_iff.1 arc
  exact lt_of_passes (mem_passing.1 here).2

end Filter

namespace Walk

variable {f : Filter} {start : Nat} {interrupt : Interrupt}

/-! ### The search of a walk -/

/-- The calls of a node are the passing edges that begin there, in the direction of the walk. -/
theorem mem_callsAt {forward : Bool} {v i : Nat} {e : Edge} :
    (e, i) ∈ callsAt f forward v ↔ (e, i) ∈ f.passing ∧ ahead (!forward) e = v := by
  rw [callsAt, List.mem_filter, Filter.mem_passing]
  cases forward with
  | true => simp [ahead, Graph.mem_outgoing, and_right_comm]
  | false => simp [ahead, Graph.mem_incoming, and_right_comm]

theorem mem_next {forward : Bool} {u v : Nat} :
    v ∈ next f forward u ↔
      ∃ e i, (e, i) ∈ f.passing ∧ ahead (!forward) e = u ∧ ahead forward e = v := by
  simp [next, mem_callsAt, and_assoc]

/-- Downstream, a walk goes along passing calls. -/
theorem hop_next_down : Hop f.graph.nodes.size (next f true) = f.Passing := by
  funext u v
  have arcs : v ∈ next f true u ↔ f.Passing u v := mem_next.trans Filter.passing_iff.symm
  unfold Hop
  rw [arcs, eq_iff_iff, ← and_assoc]
  exact and_iff_right_of_imp Filter.Passing.lt

/-- Upstream, it goes against them. -/
theorem hop_next_up : Hop f.graph.nodes.size (next f false) = fun u v => f.Passing v u := by
  funext u v
  have arcs : v ∈ next f false u ↔ f.Passing v u := by
    rw [mem_next, Filter.passing_iff]
    exact exists_congr fun e => exists_congr fun i => and_congr_right fun _ => and_comm
  unfold Hop
  rw [arcs, eq_iff_iff, ← and_assoc]
  exact and_iff_right_of_imp fun arc => arc.lt.symm

/-- The walk goes on from the nodes within its bound. -/
theorem mem_expanded_searchFrom {forward : Bool} {bound v : Nat}
    (known : f.graph.contains start = true) :
    v ∈ (searchFrom f forward bound start).expanded ↔
      Within bound (hops (Hop f.graph.nodes.size (next f forward)) [start] v) := by
  have inRange : decide (start < f.graph.nodes.size) = true := known
  have roots : [start].filter (· < f.graph.nodes.size) = [start] := by
    rw [List.filter_cons, if_pos inRange, List.filter_nil]
  rw [searchFrom, mem_expanded_iff_hops, roots, Within]
  refine and_congr_right fun _ => ?_
  by_cases none : bound = 0
  · simp [limit, none]
  · simp [limit, none, Nat.pos_of_ne_zero none]

/-- What a walk finds are the passing calls at the nodes from which it goes on. -/
theorem mem_found {forward : Bool} {bound i : Nat} {e : Edge} :
    (e, i) ∈ found f forward bound start ↔
      (e, i) ∈ f.passing ∧ ahead (!forward) e ∈ (searchFrom f forward bound start).expanded := by
  simp only [found, List.mem_flatMap, List.mem_reverse, mem_callsAt]
  constructor
  · rintro ⟨v, expanded, passing, rfl⟩
    exact ⟨passing, expanded⟩
  · rintro ⟨passing, expanded⟩
    exact ⟨_, expanded, passing, rfl⟩

/-! ### What a walk selects -/

/-- **One walk.** Its flow holds the passing calls at the nodes within its bound. -/
theorem holds_along (known : f.graph.contains start = true) (quiet : interrupt.tripped? = none)
    (forward : Bool) (bound : Nat) :
    ∃ flow, along f forward bound start interrupt = .ok flow ∧
      flow.Holds fun u v => {i | i ∈ f.numbersOf u v ∧
        Within bound (hops (Hop f.graph.nodes.size (next f forward)) [start]
          (if forward then u else v))} := by
  refine ⟨Flow.ofEdges (found f forward bound start), ?_, ?_⟩
  · rw [along, if_pos known, quiet]
  · refine (Flow.holds_ofEdges _).congr fun u v i => ?_
    have ahead_eq : ∀ e : Edge, ahead (!forward) e = if forward then e.caller else e.callee := by
      intro e
      cases forward <;> rfl
    simp only [Set.mem_ofPred_eq, mem_found, ahead_eq, mem_expanded_searchFrom known,
      Filter.numbersOf]
    constructor
    · rintro ⟨e, ⟨passing, near⟩, rfl, rfl⟩
      exact ⟨⟨e, passing, rfl, rfl⟩, near⟩
    · rintro ⟨⟨e, passing, rfl, rfl⟩, near⟩
      exact ⟨e, ⟨passing, near⟩, rfl, rfl⟩

theorem holds_callees (known : f.graph.contains start = true) (quiet : interrupt.tripped? = none)
    (bound : Nat) :
    ∃ flow, callees f bound start interrupt = .ok flow ∧
      flow.Holds fun u v => {i | i ∈ f.numbersOf u v ∧ Within bound (hops f.Passing [start] u)} := by
  obtain ⟨flow, found, holds⟩ := holds_along known quiet true bound
  rw [hop_next_down] at holds
  exact ⟨flow, found, holds⟩

theorem holds_callers (known : f.graph.contains start = true) (quiet : interrupt.tripped? = none)
    (bound : Nat) :
    ∃ flow, callers f bound start interrupt = .ok flow ∧
      flow.Holds fun u v => {i | i ∈ f.numbersOf u v ∧ Within bound (hops f.Passing [v] start)} := by
  obtain ⟨flow, found, holds⟩ := holds_along known quiet false bound
  rw [hop_next_up] at holds
  simp only [hops_flip] at holds
  exact ⟨flow, found, holds⟩

/-- The outcome of a walk with a report: the walk must have found something to report on. -/
theorem value_run_eq (f : Filter) (direction : Direction) (bound start : Nat)
    (interrupt : Interrupt) : (run f direction bound start interrupt).run.value =
      ((toward f direction bound start interrupt).mapError .interrupted).bind fun flow =>
        if f.graph.contains start then .ok flow else .error .noSuchStart := by
  unfold run Graph.contains
  cases toward f direction bound start interrupt with
  | error cause => rfl
  | ok flow =>
    by_cases inRange : start < f.graph.nodes.size
    · simp only [Graph.node?, Array.getElem?_eq_getElem inRange, decide_eq_true inRange]
      rfl
    · simp only [Graph.node?, Array.getElem?_eq_none (Nat.le_of_not_lt inRange),
        decide_eq_false inRange]
      rfl

/-- A walk that has a flow reports it. -/
theorem value_run (known : f.graph.contains start = true) {direction : Direction} {bound : Nat}
    {flow : Flow} (found : toward f direction bound start interrupt = .ok flow) :
    (run f direction bound start interrupt).run.value = .ok flow := by
  rw [value_run_eq, found, known]
  rfl

/-- **A walk selects exactly the passing calls within its bound**: downstream, those of a caller to
which passing calls lead from the start in fewer hops than the bound; upstream, those of a callee
from which they lead to the start; both ways, those of either sort. It goes on from every node at
most once and ends after at most as many steps as there are nodes, and its hop counts never reach
the number of nodes, so they fit into a word that node numbers fit into. -/
theorem run_selects (known : f.graph.contains start = true) (quiet : interrupt.tripped? = none)
    (bound : Nat) :
    (∃ flow, (run f .callees bound start interrupt).run.value = .ok flow ∧
      flow.Selects f fun u _ => Within bound (hops f.Passing [start] u)) ∧
    (∃ flow, (run f .callers bound start interrupt).run.value = .ok flow ∧
      flow.Selects f fun _ v => Within bound (hops f.Passing [v] start)) ∧
    (∃ flow, (run f .both bound start interrupt).run.value = .ok flow ∧
      flow.Selects f fun u v =>
        Within bound (hops f.Passing [start] u) ∨ Within bound (hops f.Passing [v] start)) ∧
    ∀ forward, let loop := Search.loop (next f forward) (limit bound)
      let first := Search.start f.graph.nodes.size [start]
      (searchFrom f forward bound start).expanded.Nodup ∧
      searchFrom f forward bound start = loop.after f.graph.nodes.size first ∧
      loop.finished (loop.after f.graph.nodes.size first) = true ∧
      ∀ k v d, (v, d) ∈ (loop.after k first).queue → d < f.graph.nodes.size ∧
        (f.graph.nodes.size ≤ Word.largest 32 → d ≤ Word.largest 32) := by
  obtain ⟨down, foundDown, holdsDown⟩ := holds_callees known quiet bound
  obtain ⟨up, foundUp, holdsUp⟩ := holds_callers known quiet bound
  refine ⟨⟨down, value_run known foundDown, holdsDown.selects⟩,
    ⟨up, value_run known foundUp, holdsUp.selects⟩, ⟨down.union up, ?_, ?_⟩, fun forward => ?_⟩
  · refine value_run known ?_
    show (do let down ← callees f bound start interrupt
             let up ← callers f bound start interrupt
             return down.union up) = _
    rw [foundDown, foundUp]
    rfl
  · refine ((Flow.holds_union holdsDown holdsUp).congr fun u v i => ?_).selects
    exact and_or_left.symm
  · have ends := search_eq_after f.graph.nodes.size (next f forward) (limit bound) [start]
    refine ⟨nodup_expanded _ _ _ _, ends, ?_, fun k v d waits => ?_⟩
    · rw [← ends]
      exact List.isEmpty_iff.2 (queue_search _ _ _ _)
    · have short := lt_of_mem_queue k waits
      exact ⟨short, fun fits => short.le.trans fits⟩

/-- Two functions that call each other, one of them also itself. -/
def pingPong : Graph where
  nodes := #[{ id := "app::ping", name := "ping", modulePath := some "app" },
    { id := "app::pong", name := "pong", modulePath := some "app" }]
  edges := #[⟨0, 1, {}⟩, ⟨1, 0, {}⟩, ⟨1, 1, {}⟩]

/-- One hop both ways from `ping`. -/
theorem run_selects_pingPong :
    pingPong.contains 0 = true ∧ Interrupt.none.tripped? = none ∧
    ∃ flow, (run ⟨pingPong, {}, none⟩ .both 1 0 Interrupt.none).run.value = .ok flow ∧
      flow.Selects ⟨pingPong, {}, none⟩ fun u v =>
        Within 1 (hops (Filter.Passing ⟨pingPong, {}, none⟩) [0] u) ∨
          Within 1 (hops (Filter.Passing ⟨pingPong, {}, none⟩) [v] 0) :=
  ⟨rfl, rfl, (run_selects rfl rfl 1).2.2.1⟩

end Walk

end CallGraph
