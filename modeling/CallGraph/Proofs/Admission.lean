import CallGraph.Proofs.Import
import CallGraph.Proofs.Outcome
import CallGraph.Proofs.Stripped

/-!
**What may show.**

A filter looks at calls, and a query shows nodes. Every node that it shows is the end of a call that
has been kept, so what the filter asks of both ends of a call is true of all nodes that are shown.

* `FilterConfig.Admits` — what a configuration asks of a node by itself;
* `Filter.judge_eq_none_iff`, `admits_of_passes` — both ends of a call that is kept are admitted;
* `Query.InReach`, `exists_near` — the calls that a query selects lie in reach;
* `run_shows_admitted` — every node of an answer is admitted and in reach, and the calls of an
  answer join its nodes.
-/

namespace CallGraph

/-! ### Both ends of a call -/

/-- **What a filter asks of a node**, whatever call it is an end of. -/
structure FilterConfig.Admits (c : FilterConfig) (n : Node) (path : String) : Prop where
  module : n.modulePath = some path
  real : n.synthetic = false
  own : c.excludeStd = true →
    n.isStd = false ∧ ModulePath.isStandard path = false ∧ ModulePath.isInternal path = false
  exported : c.excludeUnexported = true → n.exported = true
  spared : ∀ part ∈ c.ignore, ¬ part.toList <:+: path.toList
  included : c.endpointMatch = .both → c.includePrefixes ≠ [] →
    ∃ beginning ∈ c.includePrefixes, beginning.toList <+: path.toList
  limited : c.endpointMatch = .both → c.limitKeywords ≠ [] →
    ∃ part ∈ c.limitKeywords, part.toList <:+: path.toList

namespace Filter

variable {f : Filter} {e : Edge} {n m : Node} {path callerPath calleePath : String}

theorem mentions_iff {parts : List String} :
    mentions parts path = true ↔ ∃ part ∈ parts, part.toList <:+: path.toList := by
  have occurs : ∀ part : String, Text.contains path part = true ↔ part.toList <:+: path.toList := by
    intro part
    rw [Text.contains, Text.occursIn_iff]
    exact exists_congr fun _ => exists_congr fun _ => eq_comm
  simp only [mentions, List.any_eq_true, occurs]

theorem begins_iff {beginnings : List String} :
    begins beginnings path = true ↔
      ∃ beginning ∈ beginnings, beginning.toList <+: path.toList := by
  simp only [begins, List.any_eq_true, Text.startsWith, List.isPrefixOf_iff_prefix]

/-- A stage that drops a call comes before those that follow it. -/
theorem stage_eq_none_iff {drops : Bool} {reason : DropReason} {rest : Verdict} :
    (if drops then some reason else rest) = none ↔ drops = false ∧ rest = none := by
  cases drops <;> simp

/-- **A call is kept if no stage drops it.** -/
theorem judge_eq_none_iff : f.judge e n m callerPath calleePath = none ↔
    (f.config.excludeStd = true → (isStdNode n = false ∧ isStdNode m = false) ∧
      ModulePath.isInternal callerPath = false ∧ ModulePath.isInternal calleePath = false) ∧
    (f.config.excludeUnexported = true → n.exported = true ∧ m.exported = true) ∧
    (f.config.includePrefixes ≠ [] → f.config.endpointMatch.combine
      (begins f.config.includePrefixes callerPath) (begins f.config.includePrefixes calleePath)) ∧
    (f.config.limitKeywords ≠ [] → f.config.endpointMatch.combine
      (mentions f.config.limitKeywords callerPath) (mentions f.config.limitKeywords calleePath)) ∧
    (mentions f.config.ignore callerPath = false ∧ mentions f.config.ignore calleePath = false) ∧
    ∀ module ∈ f.focus, f.inFocus module e = true := by
  unfold judge
  simp only [stage_eq_none_iff, and_true]
  refine and_congr ?_ (and_congr ?_ (and_congr ?_ (and_congr ?_ (and_congr ?_ ?_))))
  · cases f.config.excludeStd <;> simp [and_assoc]
  · cases f.config.excludeUnexported <;> simp
  · cases f.config.includePrefixes <;> simp
  · cases f.config.limitKeywords <;> simp
  · simp
  · cases f.focus <;> simp

/-- What the stages test at one end of a call. -/
theorem admits_of_tests {c : FilterConfig} (module : n.modulePath = some path)
    (real : n.synthetic = false)
    (own : c.excludeStd = true → isStdNode n = false ∧ ModulePath.isInternal path = false)
    (exported : c.excludeUnexported = true → n.exported = true)
    (spared : mentions c.ignore path = false)
    (included : c.endpointMatch = .both → c.includePrefixes ≠ [] →
      begins c.includePrefixes path = true)
    (limited : c.endpointMatch = .both → c.limitKeywords ≠ [] →
      mentions c.limitKeywords path = true) : c.Admits n path where
  module := module
  real := real
  own std := by
    obtain ⟨notStd, internal⟩ := own std
    rw [isStdNode, module, Option.any_some, Bool.or_eq_false_iff] at notStd
    exact ⟨notStd.1, notStd.2, internal⟩
  exported := exported
  spared part here inside := by
    rw [mentions_iff.2 ⟨part, here, inside⟩] at spared
    cases spared
  included both some := begins_iff.1 (included both some)
  limited both some := mentions_iff.1 (limited both some)

/-- **Both ends of a call that is kept are admitted**, and the call is no synthetic one. -/
theorem admits_of_passes (passes : f.passes e = true) :
    ∃ n m, (f.graph.node? e.caller = some n ∧ f.graph.node? e.callee = some m) ∧
      (∃ path, f.config.Admits n path) ∧ (∃ path, f.config.Admits m path) ∧
      e.call.synthetic = false := by
  rw [Filter.passes, Option.isNone_iff_eq_none] at passes
  unfold verdict at passes
  cases atCaller : f.graph.node? e.caller with
  | none => simp [atCaller] at passes
  | some n =>
  cases atCallee : f.graph.node? e.callee with
  | none => simp [atCaller, atCallee] at passes
  | some m =>
  simp only [atCaller, atCallee, stage_eq_none_iff, Graph.isSyntheticEdge, Bool.or_eq_false_iff,
    Option.isNone_eq_false_iff, Option.isSome_iff_exists] at passes
  obtain ⟨⟨⟨⟨⟨call, realCaller⟩, realCallee⟩, p, inCaller⟩, q, inCallee⟩, kept⟩ := passes
  simp only [inCaller, inCallee, judge_eq_none_iff] at kept
  obtain ⟨own, exported, included, limited, ⟨sparedCaller, sparedCallee⟩, _⟩ := kept
  -- If both ends have to match, then a list of wanted modules is a test of each end.
  have wanted : ∀ {list : List String} {test : String → Bool},
      (list ≠ [] → f.config.endpointMatch.combine (test p) (test q) = true) →
      f.config.endpointMatch = .both → list ≠ [] → test p = true ∧ test q = true := by
    intro list test matched both some
    simpa [both, EndpointMatch.combine] using matched some
  have caller : f.config.Admits n p :=
    admits_of_tests inCaller realCaller (fun std => ⟨(own std).1.1, (own std).2.1⟩)
      (fun only => (exported only).1) sparedCaller
      (fun both some => (wanted included both some).1) fun both some => (wanted limited both some).1
  have callee : f.config.Admits m q :=
    admits_of_tests inCallee realCallee (fun std => ⟨(own std).1.2, (own std).2.2⟩)
      (fun only => (exported only).2) sparedCallee
      (fun both some => (wanted included both some).2) fun both some => (wanted limited both some).2
  exact ⟨n, m, ⟨rfl, rfl⟩, ⟨p, caller⟩, ⟨q, callee⟩, call⟩

end Filter

/-! ### Reach -/

section

variable {arc : Nat → Nat → Prop} {roots : List Nat} {u v w bound : Nat}

/-- One hop more. -/
theorem hops_le_of_arc (near : hops arc roots u < bound) (step : arc u v) :
    hops arc roots v ≤ bound := by
  obtain ⟨k, ⟨r, root, path⟩, less⟩ := distance_lt_iff.1 near
  refine distance_le_iff.2 ⟨k + 1, ?_, r, root, path.hop step⟩
  exact_mod_cast less

theorem hops_le_of_arc_before (near : hops arc [v] w < bound) (step : arc u v) :
    hops arc [u] w ≤ bound := by
  rw [← hops_flip] at near ⊢
  exact hops_le_of_arc near step

end

namespace Walk

variable {f : Filter} {direction : Direction} {bound start u v : Nat}

/-- A node lies within a bound from a start, along calls that are kept and in a direction. -/
def Reaches (f : Filter) (direction : Direction) (bound start v : Nat) : Prop :=
  match direction with
  | .callees => hops f.Passing [start] v ≤ bound
  | .callers => hops f.Passing [v] start ≤ bound
  | .both => hops f.Passing [start] v ≤ bound ∨ hops f.Passing [v] start ≤ bound

/-- Both ends of a call that a walk finds lie within its bound. -/
theorem Near.reaches (near : Near f direction bound start u v) (limited : 0 < bound)
    (passing : f.Passing u v) :
    Reaches f direction bound start u ∧ Reaches f direction bound start v := by
  have down : Within bound (hops f.Passing [start] u) →
      hops f.Passing [start] u ≤ bound ∧ hops f.Passing [start] v ≤ bound := fun within =>
    ⟨(within.2 limited).le, hops_le_of_arc (within.2 limited) passing⟩
  have up : Within bound (hops f.Passing [v] start) →
      hops f.Passing [u] start ≤ bound ∧ hops f.Passing [v] start ≤ bound := fun within =>
    ⟨hops_le_of_arc_before (within.2 limited) passing, (within.2 limited).le⟩
  cases direction with
  | callees => exact down near
  | callers => exact up near
  | both =>
    rcases near with near | near
    · exact ⟨Or.inl (down near).1, Or.inl (down near).2⟩
    · exact ⟨Or.inr (up near).1, Or.inr (up near).2⟩

end Walk

namespace Query

variable {g : Graph} {plan : Plan} {builder : Builder} {request : Request} {interrupt : Interrupt}

/-- The graph in which a plan looks. -/
def searched (g : Graph) (plan : Plan) : Graph :=
  if plan.symbol.isSome then g else g.withoutSynthetic

/-- The filter of a plan, for the graph in which it looks. -/
def sieve (g : Graph) (plan : Plan) : Filter :=
  (Filter.bind (searched g plan) plan.filter).value

/-- **A node lies within the bound of a plan**, from the node that its symbol names or from the entry
points of the program without synthetic nodes. -/
def InReach (g : Graph) (plan : Plan) (v : Nat) : Prop :=
  match plan.symbol with
  | some reference => ∃ start, Symbol.resolve g reference = .ok start ∧
    Walk.Reaches (sieve g plan) plan.direction plan.maxDepth start v
  | none => hops (searched g plan).Arc ((searched g plan).entryPoints.map (·.1)) v ≤ plan.maxDepth

theorem graph_sieve (g : Graph) (plan : Plan) : (sieve g plan).graph = searched g plan :=
  Filter.graph_bind _ _

theorem config_sieve (g : Graph) (plan : Plan) : (sieve g plan).config = plan.filter :=
  Filter.config_bind _ _

theorem wellFormed_searched (wf : g.WellFormed) (plan : Plan) : (searched g plan).WellFormed := by
  unfold searched
  split
  · exact wf
  · exact wf.withoutSynthetic

/-- **What a plan selects lies in reach.** A selection consists of calls that the filter keeps, and
both ends of each lie within the bound, if there is one. -/
theorem exists_near (wf : g.WellFormed) (valid : request.validate = .ok plan) {selection : Selection}
    (selected : (select g plan interrupt).run.value = .ok selection) :
    selection.graph = searched g plan ∧ ∃ near : Nat → Nat → Prop,
      (selection.flow.Holds fun u v => {i | i ∈ (sieve g plan).numbersOf u v ∧ near u v}) ∧
      ∀ u v, (sieve g plan).Passing u v → near u v → 0 < plan.maxDepth →
        InReach g plan u ∧ InReach g plan v := by
  have wf' := wellFormed_searched wf plan
  unfold select at selected
  unfold InReach sieve searched at *
  cases symbol : plan.symbol with
  | none =>
    simp only [symbol, Option.isSome_none, Bool.false_eq_true, if_false] at selected wf' ⊢
    rw [value_selectProgram_eq] at selected
    split at selected
    · cases selected
    · cases selected
      exact ⟨rfl, _, holds_programFlow wf', fun u v _ near => near⟩
  | some reference =>
    simp only [symbol, Option.isSome_some, if_true] at selected ⊢
    by_cases known : Symbol.Names g reference
    · obtain ⟨start, resolved, inGraph⟩ := exists_start valid symbol known
      cases tripped : interrupt.tripped? with
      | some cause =>
        rw [value_selectSymbol_of_tripped resolved inGraph tripped] at selected
        cases selected
      | none =>
        obtain ⟨flow, value, holds⟩ :
            ∃ flow, (selectSymbol g plan reference interrupt).run.value = .ok ⟨g, flow⟩ ∧ _ :=
          value_selectSymbol_of_quiet resolved inGraph tripped
        rw [value] at selected
        cases selected
        refine ⟨rfl, _, holds, fun u v passing near limited => ?_⟩
        obtain ⟨first, second⟩ := near.reaches limited passing
        exact ⟨⟨start, resolved, first⟩, start, resolved, second⟩
    · have unknown : (select g plan interrupt).run.value = _ :=
        value_select_of_unknown valid symbol known
      unfold select at unknown
      simp only [symbol] at unknown
      rw [unknown] at selected
      cases selected

/-- A pair stands for a call that has been kept. -/
structure Keeps (g : Graph) (plan : Plan) (link : Link) (e : Edge) (n m : Node) : Prop where
  edge : (searched g plan).edges[link.edge]? = some e
  joins : e.caller = link.caller ∧ e.callee = link.callee
  ends : (searched g plan).node? link.caller = some n ∧ (searched g plan).node? link.callee = some m
  admitted : (∃ path, plan.filter.Admits n path) ∧ ∃ path, plan.filter.Admits m path
  real : e.call.synthetic = false
  near : 0 < plan.maxDepth → InReach g plan link.caller ∧ InReach g plan link.callee

theorem exists_keeps (wf : g.WellFormed) (valid : request.validate = .ok plan) {selection : Selection}
    (selected : (select g plan interrupt).run.value = .ok selection) :
    selection.graph = searched g plan ∧ selection.flow.Of (searched g plan) ∧
      ∀ link ∈ selection.flow.links, ∃ e n m, Keeps g plan link e n m := by
  obtain ⟨same, near, holds, reach⟩ := exists_near wf valid selected
  refine ⟨same, graph_sieve g plan ▸ holds.of_numbersOf, fun link here => ?_⟩
  obtain ⟨⟨inFilter, close⟩, _⟩ := (holds.mem _ _ _).1 here
  have inReach := reach _ _ ⟨_, inFilter⟩ close
  obtain ⟨e, passing, caller, callee⟩ := inFilter
  obtain ⟨listed, passes⟩ := Filter.mem_passing.1 passing
  obtain ⟨n, m, ends, first, second, real⟩ := Filter.admits_of_passes passes
  rw [graph_sieve] at listed ends
  rw [config_sieve] at first second
  exact ⟨e, n, m, listed, ⟨caller, callee⟩, caller ▸ callee ▸ ends, ⟨first, second⟩, real, inReach⟩

/-- **Nothing that is excluded shows.** The document that answers a request lists nodes of the graph
in which its plan looks, and each of them is admitted by the filter that the request asks for and
lies within its bound, if there is one. The calls that are listed are calls of this graph, none of
them synthetic, and join nodes that are listed. -/
theorem run_shows_admitted (wf : g.WellFormed) (valid : request.validate = .ok plan)
    (built : (builder plan.build).run.value = .ok g) (document : plan.format = .json) {a : Answer}
    (answered : (run builder request interrupt).run.value = .ok a) :
    request.Asks plan ∧ ∃ d, Document.ofText a.body = .ok d ∧
      (∀ r ∈ d.nodes, ∃ v n, (searched g plan).node? v = some n ∧ r = .ofNode n ∧
        (∃ path, plan.filter.Admits n path) ∧ (0 < plan.maxDepth → InReach g plan v)) ∧
      ∀ r ∈ d.edges, r.synthetic = false ∧
        (∃ e ∈ (searched g plan).edges, r = .ofEdge (searched g plan) e) ∧
        (∃ n ∈ d.nodes, n.id = r.caller) ∧ ∃ n ∈ d.nodes, n.id = r.callee := by
  refine ⟨Request.asks_of_validate valid, ?_⟩
  rw [value_run_of_built valid built] at answered
  obtain ⟨⟨s, flow⟩, selected, rfl⟩ := exists_of_map_eq_ok answered
  obtain ⟨rfl, of, keeps⟩ := exists_keeps wf valid selected
  have wf' := wellFormed_searched wf plan
  refine ⟨Document.ofSelection (searched g plan) flow, ?_, fun r here => ?_, fun r here => ?_⟩
  · unfold answerOf renderFlow
    rw [document]
    exact Document.ofText_ofSelection of wf'
  · obtain ⟨x, ⟨v, inFlow, atV⟩, rfl⟩ := Document.mem_nodes_ofSelection.1 here
    obtain ⟨link, listed, isEnd⟩ := Flow.mem_nodes.1 inFlow
    obtain ⟨e, n, m, kept⟩ := keeps link listed
    rcases isEnd with rfl | rfl
    · have same : n = x := Option.some.inj (kept.ends.1.symm.trans atV)
      exact ⟨_, x, atV, rfl, same ▸ kept.admitted.1, fun limited => (kept.near limited).1⟩
    · have same : m = x := Option.some.inj (kept.ends.2.symm.trans atV)
      exact ⟨_, x, atV, rfl, same ▸ kept.admitted.2, fun limited => (kept.near limited).2⟩
  · obtain ⟨n, m, call, shown, rfl⟩ := (Document.mem_edges_ofSelection of wf').1 here
    have has := of.has_of_shows wf' shown
    obtain ⟨link, listed, ends, e, atEdge, rfl⟩ := shown
    obtain ⟨e', _, _, kept⟩ := keeps link listed
    cases Option.some.inj (kept.edge.symm.trans atEdge)
    refine ⟨kept.real, ⟨e, Array.mem_of_getElem? atEdge, ?_⟩,
      ⟨.ofNode n, Document.mem_nodes_ofSelection.2 ⟨n, has.1, rfl⟩, rfl⟩,
      .ofNode m, Document.mem_nodes_ofSelection.2 ⟨m, has.2, rfl⟩, rfl⟩
    rw [EdgeRecord.ofEdge, kept.joins.1, kept.joins.2, Graph.idOf_of_node? ends.1,
      Graph.idOf_of_node? ends.2]

/-- A program that calls the library, a test and a private function, and gets there by a thunk. -/
def audited : Graph where
  nodes := #[{ id := "app::main", name := "main", modulePath := some "app", exported := true },
    { id := "app::net$thunk", name := "net$thunk", synthetic := true },
    { id := "app::net::dial", name := "dial", modulePath := some "app::net", exported := true },
    { id := "std::io::read", name := "read", modulePath := some "std::io", exported := true },
    { id := "app::net::retry", name := "retry", modulePath := some "app::net" },
    { id := "app::testing::probe", name := "probe", modulePath := some "app::testing",
      exported := true }]
  edges := #[⟨0, 1, {}⟩, ⟨1, 2, {}⟩, ⟨2, 3, {}⟩, ⟨2, 4, {}⟩, ⟨2, 5, {}⟩, ⟨2, 2, {}⟩]

/-- A request for the public part of it, and what it means. -/
def audit : Request where
  moduleArgs := ["app"]
  limitPrefix := ["app"]
  ignore := ["testing"]
  maxDepth := some 1
  format := "json"

def auditPlan : Plan where
  build := { moduleArgs := ["app"], dir := none, algorithm := .rta, includeTests := false, tags := [] }
  symbol := none
  direction := .callees
  group := .byModule
  filter := {
    excludeStd := true
    excludeUnexported := true
    includePrefixes := ["app"]
    ignore := ["testing"] }
  maxDepth := 1
  format := .json
  debug := false
  timeoutMs := none

theorem run_shows_admitted_audited :
    audited.WellFormed ∧ audit.validate = .ok auditPlan ∧
    ((fun _ => pure audited : Builder) auditPlan.build).run.value = .ok audited ∧
    ∃ a, (run (fun _ => pure audited) audit .none).run.value = .ok a ∧ a.nodeCount = 2 ∧
      audit.Asks auditPlan ∧ ∃ d, Document.ofText a.body = .ok d ∧
        (∀ r ∈ d.nodes, ∃ v n, (searched audited auditPlan).node? v = some n ∧ r = .ofNode n ∧
          (∃ path, auditPlan.filter.Admits n path) ∧
          (0 < auditPlan.maxDepth → InReach audited auditPlan v)) ∧
        ∀ r ∈ d.edges, r.synthetic = false ∧
          (∃ e ∈ (searched audited auditPlan).edges, r = .ofEdge (searched audited auditPlan) e) ∧
          (∃ n ∈ d.nodes, n.id = r.caller) ∧ ∃ n ∈ d.nodes, n.id = r.callee := by
  have wf : audited.WellFormed := by decide +kernel
  have valid : audit.validate = .ok auditPlan := by decide +kernel
  have two : (run (fun _ => pure audited) audit .none).run.value.map (·.nodeCount) = .ok 2 := by
    decide +kernel
  obtain ⟨a, answered, count⟩ := exists_of_map_eq_ok two
  exact ⟨wf, valid, rfl, a, answered, count, run_shows_admitted wf valid rfl rfl answered⟩

end Query

end CallGraph
