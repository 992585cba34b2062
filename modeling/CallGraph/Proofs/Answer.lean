import CallGraph.Proofs.Rendering
import CallGraph.Proofs.Selection

/-!
**What a request is answered.**

A request has an error or a plan, and a plan selects a flow unless it is given up. Both selections
are described by what they show, for filters without a focus: the first call that is kept between
two nodes, if these are near.

* `value_selectProgram_eq`, `shows_programFlow` — the selection of a whole program;
* `Walk.Near`, `value_selectSymbol_of_quiet` — the selection of a walk;
* `Request.Means`, `Request.validate_eq_ok_iff` — what a request means, field by field;
* `Request.Asks`, `asks_of_validate` — a plan says what its request says;
* `value_run` — the answer to a request.
-/

namespace CallGraph

/-! ### Selections that may be given up -/

/-- A measurement succeeds, or it is given up at some node. -/
theorem DepthMap.value_measure_cases (g : Graph) (roots : List Nat) (bound : Nat)
    (interrupt : Interrupt) :
    (measure g roots bound interrupt).run.value = .ok (measured g roots bound) ∨
      ∃ cause, (measure g roots bound interrupt).run.value = .error cause ∧
        0 < g.nodes.size ∧ interrupt.tripped? = some cause := by
  unfold measure
  by_cases known : roots.any g.contains = true
  · rw [if_pos known]
    cases tripped : interrupt.tripped? with
    | none => exact Or.inl rfl
    | some cause =>
      obtain ⟨r, _, inRange⟩ := List.any_eq_true.1 known
      exact Or.inr ⟨cause, rfl, Nat.zero_lt_of_lt (of_decide_eq_true inRange), rfl⟩
  · rw [if_neg known]
    exact Or.inl rfl

theorem Filter.bind_of_unfocused {g : Graph} {config : FilterConfig} (unfocused : config.focus = none) :
    (Filter.bind g config).value = ⟨g, config, none⟩ := by
  unfold Filter.bind
  rw [unfocused]

namespace Query

variable {g : Graph} {plan : Plan} {interrupt : Interrupt}

/-- The flow that a plan selects from a program without synthetic nodes. -/
def programFlow (s : Graph) (plan : Plan) : Flow :=
  Flow.ofEdges ((s.numberedEdges.filter fun e =>
    (Filter.bind s plan.filter).value.passes e.1).filter fun e =>
      (depthMap s plan).all (·.admits e.1))

/-- **The selection of a whole program** is given up if the interrupt has tripped, unless there is
no node to look at. -/
theorem value_selectProgram_eq (g : Graph) (plan : Plan) (interrupt : Interrupt) :
    (selectProgram g plan interrupt).run.value =
      match if 0 < g.withoutSynthetic.nodes.size then interrupt.tripped? else none with
      | some cause => .error (.interrupted cause)
      | none => .ok ⟨g.withoutSynthetic, programFlow g.withoutSynthetic plan⟩ := by
  have whole := fun depth => value_selectWhole g.withoutSynthetic
    (Filter.bind g.withoutSynthetic plan.filter).value depth interrupt
  unfold selectProgram programFlow depthMap
  simp only [Logged.value_run_bind, Logged.value_run_lift, interruptible, Except.bind]
  by_cases limited : 0 < plan.maxDepth
  · rw [if_pos limited, if_pos limited]
    simp only [Logged.value_run_bind, Logged.value_run_map, Logged.value_run_adapt, whole]
    rcases DepthMap.value_measure_cases g.withoutSynthetic
      (g.withoutSynthetic.entryPoints.map (·.1)) plan.maxDepth interrupt with
      depths | ⟨cause, depths, some, tripped⟩
    · rw [depths]
      cases if 0 < g.withoutSynthetic.nodes.size then interrupt.tripped? else none <;> rfl
    · rw [depths, if_pos some, tripped]
      rfl
  · rw [if_neg limited, if_neg limited]
    simp only [Logged.value_run_bind, Logged.value_run_pure, Logged.value_run_adapt, whole]
    cases if 0 < g.withoutSynthetic.nodes.size then interrupt.tripped? else none <;> rfl

/-- Two nodes lie within the bound of a plan, if there is one. -/
def Close (s : Graph) (plan : Plan) (n m : Node) : Prop :=
  ∃ u v, (s.node? u = some n ∧ s.node? v = some m) ∧ (0 < plan.maxDepth →
    hops s.Arc (s.entryPoints.map (·.1)) u ≤ plan.maxDepth ∧
      hops s.Arc (s.entryPoints.map (·.1)) v ≤ plan.maxDepth)

section

variable {s : Graph} (wf : s.WellFormed)

include wf

/-- It holds the calls that the filter passes and that lie within the bound, if there is one. -/
theorem holds_programFlow : (programFlow s plan).Holds fun u v =>
    {i | i ∈ (Filter.bind s plan.filter).value.numbersOf u v ∧ (0 < plan.maxDepth →
      hops s.Arc (s.entryPoints.map (·.1)) u ≤ plan.maxDepth ∧
        hops s.Arc (s.entryPoints.map (·.1)) v ≤ plan.maxDepth)} := by
  unfold programFlow
  refine (Flow.holds_ofEdges _).congr fun u v i => ?_
  have admitted : ∀ e, (depthMap s plan).all (·.admits e) = true ↔ _ := fun e =>
    all_admits_iff (e := e) wf.roots
  have passing : (Filter.bind s plan.filter).value.passing = s.numberedEdges.filter fun e =>
      (Filter.bind s plan.filter).value.passes e.1 := by
    rw [Filter.passing, Filter.graph_bind]
  rw [← passing]
  constructor
  · rintro ⟨e, listed, rfl, rfl⟩
    obtain ⟨passes, near⟩ := List.mem_filter.1 listed
    exact ⟨⟨e, passes, rfl, rfl⟩, (admitted e).1 near⟩
  · rintro ⟨⟨e, passes, rfl, rfl⟩, near⟩
    exact ⟨e, List.mem_filter.2 ⟨passes, (admitted e).2 near⟩, rfl, rfl⟩

variable (unfocused : plan.filter.focus = none)

include unfocused

theorem holds_programFlow_of_unfocused : (programFlow s plan).Holds fun u v =>
    {i | i ∈ (⟨s, plan.filter, none⟩ : Filter).numbersOf u v ∧ (0 < plan.maxDepth →
      hops s.Arc (s.entryPoints.map (·.1)) u ≤ plan.maxDepth ∧
        hops s.Arc (s.entryPoints.map (·.1)) v ≤ plan.maxDepth)} := by
  rw [← Filter.bind_of_unfocused unfocused]
  exact holds_programFlow wf

theorem of_programFlow : (programFlow s plan).Of s :=
  (holds_programFlow_of_unfocused wf unfocused).of_numbersOf

/-- **It shows the first call between two nodes that is kept**, if both lie within the bound. -/
theorem shows_programFlow {n m : Node} {call : Call} : (programFlow s plan).Shows s n m call ↔
    Close s plan n m ∧ s.firstCall n m (plan.filter.keeps n m) = some call := by
  rw [(holds_programFlow_of_unfocused wf unfocused).shows_iff wf rfl, Close]
  constructor
  · rintro ⟨u, v, ends, near, first⟩
    exact ⟨⟨u, v, ends, near⟩, first⟩
  · rintro ⟨⟨u, v, ends, near⟩, first⟩
    exact ⟨u, v, ends, near, first⟩

end

end Query

/-! ### Walks -/

namespace Walk

variable {f : Filter} {direction : Direction} {bound start : Nat} {interrupt : Interrupt}

/-- The calls that a walk finds if they are kept. -/
def Near (f : Filter) (direction : Direction) (bound start u v : Nat) : Prop :=
  match direction with
  | .callees => Within bound (hops f.Passing [start] u)
  | .callers => Within bound (hops f.Passing [v] start)
  | .both => Within bound (hops f.Passing [start] u) ∨ Within bound (hops f.Passing [v] start)

/-- A walk that is not given up holds the calls that it finds. -/
theorem holds_toward (known : f.graph.contains start = true) (quiet : interrupt.tripped? = none) :
    ∃ flow, toward f direction bound start interrupt = .ok flow ∧
      flow.Holds fun u v => {i | i ∈ f.numbersOf u v ∧ Near f direction bound start u v} := by
  obtain ⟨down, foundDown, holdsDown⟩ := holds_callees known quiet bound
  obtain ⟨up, foundUp, holdsUp⟩ := holds_callers known quiet bound
  cases direction with
  | callees => exact ⟨down, foundDown, holdsDown⟩
  | callers => exact ⟨up, foundUp, holdsUp⟩
  | both =>
    refine ⟨down.union up, ?_, ?_⟩
    · show (callees f bound start interrupt).bind (fun down =>
        (callers f bound start interrupt).bind fun up => .ok (down.union up)) = _
      rw [foundDown, foundUp]
      rfl
    · exact (Flow.holds_union holdsDown holdsUp).congr fun u v i => and_or_left.symm

/-- A walk from a node is given up if the interrupt has tripped. -/
theorem toward_of_tripped (known : f.graph.contains start = true) {cause : Interruption}
    (tripped : interrupt.tripped? = some cause) :
    toward f direction bound start interrupt = .error cause := by
  have given : ∀ forward, along f forward bound start interrupt = .error cause := by
    intro forward
    rw [along, if_pos known, tripped]
  cases direction with
  | callees => exact given true
  | callers => exact given false
  | both =>
    show (callees f bound start interrupt).bind _ = _
    rw [callees, given true]
    rfl

end Walk

namespace Query

section

variable {g : Graph} {plan : Plan} {reference : String} {start : Nat} {interrupt : Interrupt}
  (resolved : Symbol.resolve g reference = .ok start)

include resolved

/-- What a walk from a known symbol selects. -/
theorem value_selectSymbol_eq : (selectSymbol g plan reference interrupt).run.value =
    ((Walk.run (Filter.bind g plan.filter).value plan.direction plan.maxDepth start
      interrupt).run.value.mapError ofWalkFailure).map fun flow => ⟨g, flow⟩ := by
  unfold selectSymbol
  rw [resolved]
  simp only [Logged.value_run_bind, Logged.value_run_lift, Logged.value_run_adapt, Except.bind]
  cases (Walk.run _ _ _ _ _).run.value <;> rfl

variable (known : g.contains start = true)

include known

theorem value_selectSymbol_of_tripped {cause : Interruption}
    (tripped : interrupt.tripped? = some cause) :
    (selectSymbol g plan reference interrupt).run.value = .error (.interrupted cause) := by
  rw [← Filter.graph_bind g plan.filter] at known
  rw [value_selectSymbol_eq resolved]
  unfold Walk.run
  rw [Walk.toward_of_tripped known tripped]
  rfl

/-- **A walk that is not given up** holds the calls that it finds. -/
theorem value_selectSymbol_of_quiet (quiet : interrupt.tripped? = none) :
    ∃ flow, (selectSymbol g plan reference interrupt).run.value = .ok ⟨g, flow⟩ ∧
      flow.Holds fun u v => {i | i ∈ (Filter.bind g plan.filter).value.numbersOf u v ∧
        Walk.Near (Filter.bind g plan.filter).value plan.direction plan.maxDepth start u v} := by
  rw [← Filter.graph_bind g plan.filter] at known
  obtain ⟨flow, found, holds⟩ := Walk.holds_toward known quiet
  refine ⟨flow, ?_, holds⟩
  rw [value_selectSymbol_eq resolved, Walk.value_run known found]
  rfl

end

end Query

/-! ### Answers -/

theorem eq_some_of_orUnknown {α : Type} {option : OptionKind} {text : String} {read : Option α}
    {a : α} (known : orUnknown option text read = .ok a) : read = some a := by
  unfold orUnknown at known
  cases read with
  | none => cases known
  | some b => exact congrArg some (Except.ok.inj known)

namespace Request

/-- **What a request means**: a plan whose choices its words stand for, and whose texts are its
own, cleaned. -/
structure Means (r : Request) (p : Plan) : Prop where
  modules : cleanList r.moduleArgs ≠ []
  algorithm : Algorithm.parse? r.algo = some p.build.algorithm
  direction : Direction.parse? r.direction = some p.direction
  format : Format.parse? r.format = some p.format
  endpointMatch : EndpointMatch.parse? r.endpointMatch = some p.filter.endpointMatch
  group : Grouping.ofKeys (cleanList r.group) = .ok p.group
  build : p.build = ⟨cleanList r.moduleArgs, r.dir, p.build.algorithm, r.tests, cleanList r.tags⟩
  symbol : p.symbol = cleanOption r.symbol
  filter : p.filter = r.filterConfig p.filter.endpointMatch
  maxDepth : p.maxDepth = r.depthBound
  debug : p.debug = r.debug
  timeoutMs : p.timeoutMs = r.timeoutMs

theorem ofKeys_of_readGroup {keys : List String} {g : Grouping} (known : readGroup keys = .ok g) :
    Grouping.ofKeys keys = .ok g := by
  unfold readGroup at known
  split at known
  · rename_i read
    cases known
    exact read
  · cases known

/-- **A request has a plan exactly if the plan is what it means.** -/
theorem validate_eq_ok_iff {r : Request} {p : Plan} : r.validate = .ok p ↔ r.Means p := by
  constructor
  · intro valid
    unfold validate at valid
    split at valid
    · cases valid
    rename_i modules
    obtain ⟨algorithm, linked, valid⟩ := exists_of_bind_eq_ok valid
    obtain ⟨direction, toward, valid⟩ := exists_of_bind_eq_ok valid
    obtain ⟨format, written, valid⟩ := exists_of_bind_eq_ok valid
    obtain ⟨endpointMatch, matched, valid⟩ := exists_of_bind_eq_ok valid
    obtain ⟨group, grouped, valid⟩ := exists_of_bind_eq_ok valid
    cases valid
    exact ⟨modules, eq_some_of_orUnknown linked, eq_some_of_orUnknown toward,
      eq_some_of_orUnknown written, eq_some_of_orUnknown matched, ofKeys_of_readGroup grouped, rfl, rfl,
      rfl, rfl, rfl, rfl⟩
  · intro means
    unfold validate
    rw [if_neg means.modules, means.algorithm, means.direction, means.format, means.endpointMatch,
      readGroup, means.group]
    show Except.ok _ = Except.ok p
    obtain ⟨build, symbol, direction, group, filter, maxDepth, format, debug, timeoutMs⟩ := p
    simp only [Except.ok.injEq, Plan.mk.injEq]
    exact ⟨means.build.symm, means.symbol.symm, trivial, trivial, means.filter.symm, means.maxDepth.symm,
      trivial, means.debug.symm, means.timeoutMs.symm⟩

/-- **What a plan takes from its request.** -/
structure Asks (r : Request) (plan : Plan) : Prop where
  symbol : plan.symbol = cleanOption r.symbol
  direction : Direction.parse? r.direction = some plan.direction
  format : Format.parse? r.format = some plan.format
  endpointMatch : EndpointMatch.parse? r.endpointMatch = some plan.filter.endpointMatch
  filter : plan.filter = r.filterConfig plan.filter.endpointMatch
  maxDepth : plan.maxDepth = r.depthBound
  timeoutMs : plan.timeoutMs = r.timeoutMs

theorem asks_of_validate {request : Request} {plan : Plan}
    (valid : request.validate = .ok plan) : request.Asks plan := by
  have means := validate_eq_ok_iff.1 valid
  exact ⟨means.symbol, means.direction, means.format, means.endpointMatch, means.filter,
    means.maxDepth, means.timeoutMs⟩

/-- The plan of a request asks for its symbol and its focus. -/
theorem of_validate {request : Request} {plan : Plan} (valid : request.validate = .ok plan) :
    plan.symbol = cleanOption request.symbol ∧ plan.filter.focus = cleanOption request.focus := by
  have asks := asks_of_validate valid
  exact ⟨asks.symbol, by rw [asks.filter]; rfl⟩

end Request

namespace Query

/-- The answer to a plan that has selected something. -/
def answerOf (plan : Plan) (selection : Selection) : Answer where
  format := plan.format
  body := renderFlow selection.graph selection.flow plan.format plan.group
  nodeCount := selection.flow.nodeCount
  edgeCount := selection.flow.edgeCount

/-- **The answer to a request**: it is checked, a graph is built, and part of it is selected. -/
theorem value_run_eq (builder : Builder) (request : Request) (interrupt : Interrupt) :
    (run builder request interrupt).run.value = request.validate.bind fun plan =>
      ((builder plan.build).run.value.mapError .construction).bind fun g =>
        (select g plan (effectiveInterrupt plan interrupt)).run.value.map (answerOf plan) := by
  unfold run
  rw [Logged.value_run_bind]
  show request.validate.bind _ = _
  refine congrArg request.validate.bind (funext fun plan => ?_)
  unfold execute
  simp only [Logged.value_run_bind, Logged.value_run_adapt, Logged.value_run_pure,
    Logged.value_run_lift]
  refine congrArg (Except.bind _) (funext fun g => ?_)
  cases (select g plan (effectiveInterrupt plan interrupt)).run.value <;> rfl

/-- The answer to a request about a graph. -/
theorem value_run (g : Graph) (request : Request) (interrupt : Interrupt) :
    (run (fun _ => pure g) request interrupt).run.value = request.validate.bind fun plan =>
      (select g plan (effectiveInterrupt plan interrupt)).run.value.map (answerOf plan) := by
  rw [value_run_eq]
  rfl

section

variable {g : Graph} {request : Request} {plan : Plan} {interrupt : Interrupt}

/-- A request that makes no sense is not answered. -/
theorem value_run_of_error {e : QueryError} (invalid : request.validate = .error e) :
    (run (fun _ => pure g) request interrupt).run.value = .error e := by
  rw [value_run, invalid]
  rfl

theorem value_run_of_ok (valid : request.validate = .ok plan) :
    (run (fun _ => pure g) request interrupt).run.value =
      (select g plan (effectiveInterrupt plan interrupt)).run.value.map (answerOf plan) := by
  rw [value_run, valid]
  rfl

/-- The answer to a request about a whole program. -/
theorem value_run_of_whole (valid : request.validate = .ok plan) (whole : plan.symbol = none) :
    (run (fun _ => pure g) request interrupt).run.value =
      match if 0 < g.withoutSynthetic.nodes.size then
        (effectiveInterrupt plan interrupt).tripped? else none with
      | some cause => .error (.interrupted cause)
      | none => .ok (answerOf plan ⟨g.withoutSynthetic, programFlow g.withoutSynthetic plan⟩) := by
  rw [value_run_of_ok valid, select, whole]
  dsimp only
  rw [value_selectProgram_eq]
  cases if 0 < g.withoutSynthetic.nodes.size then
    (effectiveInterrupt plan interrupt).tripped? else none <;> rfl

end

end Query

end CallGraph
