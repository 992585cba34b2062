import CallGraph.Proofs.Flow
import CallGraph.Proofs.Search
import CallGraph.Proofs.Strip
import CallGraph.Query

/-!
**A query without a symbol selects the calls near the entry points.**

The theory of `selectProgram`: synthetic nodes are left out, the distances from the entry points of
what is left are measured along all its edges, and the edges that the filter passes are selected if
both their ends lie within the bound.

* `hop_calleesOf` — a measurement goes along the arcs of a graph; `depth_eq_some_iff`, `admits_iff` —
  the depths that it finds, and the calls that it admits;
* `lt_of_mem_entryPoints` — entry points are nodes;
* `Query.select_program_selects` — what is selected.
-/

namespace CallGraph

/-! ### Distances from the entry points -/

theorem hop_calleesOf (g : Graph) : Hop g.nodes.size g.calleesOf = g.Arc := by
  funext u v
  rw [eq_iff_iff, Graph.arc_iff]
  rfl

namespace DepthMap

variable {g : Graph} {roots : List Nat} {bound : Nat} {interrupt : Interrupt}

/-- The depth map that a measurement yields. -/
def measured (g : Graph) (roots : List Nat) (bound : Nat) : DepthMap :=
  ⟨(search g.nodes.size g.calleesOf (some bound) roots).distances, bound⟩

/-- A measurement that is not interrupted succeeds. -/
theorem value_measure (quiet : interrupt.tripped? = none) :
    (measure g roots bound interrupt).run.value = .ok (measured g roots bound) := by
  unfold measure
  rw [quiet]
  split <;> rfl

/-- **The depth of a node** is how many hops lead there from the roots in the graph, up to the bound. -/
theorem depth_eq_some_iff {v d : Nat} : (measured g roots bound).depth v = some d ↔
    hops g.Arc (roots.filter (· < g.nodes.size)) v = d ∧ d ≤ bound := by
  have found : (measured g roots bound).depth v = some d ↔
      hops g.Arc (roots.filter (· < g.nodes.size)) v = d ∧ ∀ l, some bound = some l → d ≤ l := by
    rw [← hop_calleesOf]
    exact get_search_iff
  rw [found]
  refine and_congr_right fun _ => ⟨fun near => near bound rfl, fun near l same => ?_⟩
  exact Option.some.inj same ▸ near

/-- A call is admitted if both its ends have a depth. -/
theorem admits_iff_depth {e : Edge} : (measured g roots bound).admits e = true ↔
    (∃ d, (measured g roots bound).depth e.caller = some d) ∧
      ∃ d, (measured g roots bound).depth e.callee = some d := by
  have near : ∀ v, ((measured g roots bound).depth v).any (· ≤ bound) = true ↔
      ∃ d, (measured g roots bound).depth v = some d := by
    intro v
    rw [Option.any_eq_true]
    refine exists_congr fun d => and_iff_left_of_imp fun here => ?_
    exact decide_eq_true (depth_eq_some_iff.1 here).2
  rw [admits, Bool.and_eq_true]
  exact and_congr (near e.caller) (near e.callee)

/-- **A call is admitted if both its ends lie within the bound.** -/
theorem admits_iff (inRange : ∀ r ∈ roots, r < g.nodes.size) {e : Edge} :
    (measured g roots bound).admits e = true ↔
      hops g.Arc roots e.caller ≤ bound ∧ hops g.Arc roots e.callee ≤ bound := by
  have all : roots.filter (· < g.nodes.size) = roots :=
    List.filter_eq_self.2 fun r here => decide_eq_true (inRange r here)
  have near : ∀ v, (∃ d, (measured g roots bound).depth v = some d) ↔
      hops g.Arc roots v ≤ bound := by
    intro v
    simp only [depth_eq_some_iff, all]
    constructor
    · rintro ⟨d, same, below⟩
      rw [same]
      exact_mod_cast below
    · intro close
      obtain ⟨d, same⟩ := ENat.ne_top_iff_exists.1 (ne_top_of_le_ne_top (ENat.natCast_ne_top _) close)
      rw [← same] at close
      exact ⟨d, same.symm, by exact_mod_cast close⟩
  rw [admits_iff_depth, near, near]

end DepthMap

namespace Graph

/-- Entry points are nodes if the declared roots are. -/
theorem lt_of_mem_entryPoints {g : Graph} (declared : ∀ r ∈ g.roots, r < g.nodes.size) :
    ∀ v ∈ g.entryPoints.map (·.1), v < g.nodes.size := by
  intro v here
  obtain ⟨⟨w, kind⟩, listed, rfl⟩ := List.mem_map.1 here
  unfold entryPoints at listed
  split at listed
  · obtain ⟨r, root, same⟩ := List.mem_map.1 listed
    cases same
    exact declared _ root
  · split at listed
    · obtain ⟨x, number, named⟩ := List.mem_filterMap.1 listed
      obtain ⟨_, _, same⟩ := Option.map_eq_some_iff.1 named
      cases same
      exact List.mem_range.1 number
    · obtain ⟨x, orphan, same⟩ := List.mem_map.1 listed
      cases same
      exact List.mem_range.1 (List.mem_filter.1 orphan).1

theorem lt_of_mem_roots_withoutSynthetic {g : Graph} :
    ∀ r ∈ g.withoutSynthetic.roots, r < g.withoutSynthetic.nodes.size := by
  intro r here
  obtain ⟨v, _, renumbered⟩ := List.mem_filterMap.1 here
  rw [size_withoutSynthetic]
  exact (List.getElem?_eq_some_iff.1 (renumber?_eq_some_iff.1 renumbered)).1

end Graph

/-! ### The selection -/

theorem Filter.graph_bind (g : Graph) (config : FilterConfig) :
    (Filter.bind g config).value.graph = g := by
  unfold Filter.bind
  split
  · rfl
  · split <;> rfl

theorem Filter.config_bind (g : Graph) (config : FilterConfig) :
    (Filter.bind g config).value.config = config := by
  unfold Filter.bind
  split
  · rfl
  · split <;> rfl

/-- The focus of a filter is what its configuration names. -/
theorem Filter.focus_bind (g : Graph) (config : FilterConfig) :
    (Filter.bind g config).value.focus = config.focus.bind (resolveFocus g) := by
  unfold Filter.bind
  cases config.focus with
  | none => rfl
  | some text =>
    rw [Option.bind_some]
    dsimp only
    cases resolveFocus g text <;> rfl

/-- A selection that is not interrupted holds the edges that the filter passes and the depth map
admits. -/
theorem holds_selectWhole {g : Graph} {f : Filter} {interrupt : Interrupt} (bound : f.graph = g)
    (quiet : interrupt.tripped? = none) (depth : Option DepthMap) :
    ∃ flow, (selectWhole g f depth interrupt).run.value = .ok flow ∧
      flow.Holds fun u v => {i | ∃ e, (e, i) ∈ f.passing ∧ depth.all (·.admits e) = true ∧
        e.caller = u ∧ e.callee = v} := by
  subst bound
  refine ⟨Flow.ofEdges (f.passing.filter fun e => depth.all (·.admits e.1)), ?_, ?_⟩
  · unfold selectWhole
    rw [quiet]
    split <;> rfl
  · refine (Flow.holds_ofEdges _).congr fun u v i => exists_congr fun e => ?_
    rw [List.mem_filter, and_assoc]

namespace Query

/-- The depth map that a plan asks for. -/
def depthMap (g : Graph) (plan : Plan) : Option DepthMap :=
  if 0 < plan.maxDepth then
    some (DepthMap.measured g (g.entryPoints.map (·.1)) plan.maxDepth)
  else none

/-- What a query that is not interrupted answers is the selection of its last stage. -/
theorem value_selectProgram {g : Graph} {plan : Plan} {interrupt : Interrupt} {flow : Flow}
    (quiet : interrupt.tripped? = none)
    (chosen : (selectWhole g.withoutSynthetic (Filter.bind g.withoutSynthetic plan.filter).value
      (depthMap g.withoutSynthetic plan) interrupt).run.value = .ok flow) :
    (selectProgram g plan interrupt).run.value = .ok ⟨g.withoutSynthetic, flow⟩ := by
  unfold selectProgram
  unfold depthMap at chosen
  simp only [Logged.value_run_bind, Logged.value_run_lift, interruptible, Except.bind]
  by_cases limited : 0 < plan.maxDepth
  · rw [if_pos limited] at chosen
    rw [if_pos limited]
    simp only [Logged.value_run_bind, Logged.value_run_map, Logged.value_run_adapt,
      DepthMap.value_measure quiet, Except.mapError, Except.map, Except.bind, chosen]
    rfl
  · rw [if_neg limited] at chosen
    rw [if_neg limited]
    simp only [Logged.value_run_bind, Logged.value_run_pure, Logged.value_run_adapt,
      Except.mapError, Except.bind, chosen]

/-- A depth map admits the calls with both ends within the bound of its plan, if there is one. -/
theorem all_admits_iff {g : Graph} {plan : Plan}
    (declared : ∀ r ∈ g.roots, r < g.nodes.size) {e : Edge} :
    (depthMap g plan).all (·.admits e) = true ↔ (0 < plan.maxDepth →
      hops g.Arc (g.entryPoints.map (·.1)) e.caller ≤ plan.maxDepth ∧
        hops g.Arc (g.entryPoints.map (·.1)) e.callee ≤ plan.maxDepth) := by
  unfold depthMap
  by_cases limited : 0 < plan.maxDepth
  · rw [if_pos limited, Option.all_some, DepthMap.admits_iff (Graph.lt_of_mem_entryPoints declared)]
    exact (imp_iff_right limited).symm
  · rw [if_neg limited]
    exact iff_of_true rfl fun bounded => absurd bounded limited

/-- **The selection of a whole program is exact**: it has the pairs of which the filter passes an
edge and, if there is a bound, both ends lie within it, along whatever edges. -/
theorem select_program_selects {g : Graph} {plan : Plan} {interrupt : Interrupt}
    (whole : plan.symbol = none) (quiet : interrupt.tripped? = none) :
    let s := g.withoutSynthetic
    let filter := (Filter.bind s plan.filter).value
    let roots := s.entryPoints.map (·.1)
    ∃ flow, (select g plan interrupt).run.value = .ok ⟨s, flow⟩ ∧
      flow.Selects filter fun u v => 0 < plan.maxDepth →
        hops s.Arc roots u ≤ plan.maxDepth ∧ hops s.Arc roots v ≤ plan.maxDepth := by
  intro s filter roots
  have same : filter.graph = s := Filter.graph_bind s plan.filter
  obtain ⟨flow, chosen, holds⟩ := holds_selectWhole same quiet (depthMap s plan)
  refine ⟨flow, ?_, (holds.congr fun u v i => ?_).selects⟩
  · unfold select
    rw [whole]
    exact value_selectProgram quiet chosen
  · have admitted : ∀ e, (depthMap s plan).all (·.admits e) = true ↔ _ := fun e =>
      all_admits_iff (e := e) Graph.lt_of_mem_roots_withoutSynthetic
    constructor
    · rintro ⟨e, passing, near, rfl, rfl⟩
      exact ⟨⟨e, passing, rfl, rfl⟩, (admitted e).1 near⟩
    · rintro ⟨⟨e, passing, rfl, rfl⟩, near⟩
      exact ⟨e, passing, (admitted e).2 near, rfl, rfl⟩

/-- A program that runs a function through a thunk, which calls itself. -/
def throughThunk : Graph where
  nodes := #[{ id := "app::main", name := "main", modulePath := some "app" },
    { id := "app::run$thunk", name := "run$thunk", synthetic := true },
    { id := "app::run", name := "run", modulePath := some "app" }]
  edges := #[⟨0, 1, {}⟩, ⟨1, 2, {}⟩, ⟨1, 1, {}⟩, ⟨2, 0, {}⟩]

/-- A plan for a whole program, one hop from its entry points. -/
def oneHop : Plan where
  build := { moduleArgs := ["app"], dir := none, algorithm := .rta, includeTests := false, tags := [] }
  symbol := none
  direction := .callees
  group := .byModule
  filter := {}
  maxDepth := 1
  format := .mermaid
  debug := false
  timeoutMs := none

theorem select_program_selects_oneHop :
    oneHop.symbol = none ∧ Interrupt.none.tripped? = none ∧
    ∃ flow, (select throughThunk oneHop Interrupt.none).run.value =
        .ok ⟨throughThunk.withoutSynthetic, flow⟩ ∧
      flow.Selects (Filter.bind throughThunk.withoutSynthetic {}).value fun u v => 0 < 1 →
        hops throughThunk.withoutSynthetic.Arc
            (throughThunk.withoutSynthetic.entryPoints.map (·.1)) u ≤ (1 : ℕ) ∧
          hops throughThunk.withoutSynthetic.Arc
            (throughThunk.withoutSynthetic.entryPoints.map (·.1)) v ≤ (1 : ℕ) :=
  ⟨rfl, rfl, select_program_selects rfl rfl⟩

end Query

end CallGraph
