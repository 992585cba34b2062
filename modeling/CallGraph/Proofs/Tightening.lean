import CallGraph.Proofs.Admission
import CallGraph.Proofs.Everywhere

/-!
**Tightening a filter only removes.**

A configuration is tighter than another if it asks for more wherever it asks for anything. An empty
list asks for nothing, so a list of wanted modules is narrower than no list as well as than a longer
one. What a tight filter keeps a loose one keeps, and the edges of a pair stand or fall together: the
verdict on an edge hangs on its ends, unless the edge itself is synthetic. So the same edge stands for
a pair in both flows, although each has the least number among the edges that its own filter passes.

* `FilterConfig.Tightens` — one configuration is tighter than another;
* `Filter.passes_of_tightens`, `Filter.numbersOf_eq` — a tight filter passes fewer pairs, but all
  passing edges of each;
* `Flow.PartOf`, `Flow.Narrowed` — one flow, or the outcome of one selection, is part of another;
* `narrowed_of_tightens` — whole graphs and walks.
-/

namespace CallGraph

/-! ### Tighter configurations -/

namespace FilterConfig

/-- A list of wanted modules asks for no less than another: it is the same, or a shorter one that is
not empty, or the other asks for nothing. -/
def Narrows (narrow wide : List String) : Prop :=
  narrow = wide ∨ wide = [] ∨ (narrow ≠ [] ∧ narrow ⊆ wide)

/-- **A configuration is tighter than another.** -/
structure Tightens (tight loose : FilterConfig) : Prop where
  std : loose.excludeStd = true → tight.excludeStd = true
  unexported : loose.excludeUnexported = true → tight.excludeUnexported = true
  included : Narrows tight.includePrefixes loose.includePrefixes
  limited : Narrows tight.limitKeywords loose.limitKeywords
  ignored : loose.ignore ⊆ tight.ignore
  matched : tight.endpointMatch = loose.endpointMatch ∨
    (loose.endpointMatch = .either ∧ tight.endpointMatch = .both)
  focus : tight.focus = loose.focus ∨ loose.focus = none

variable {tight loose : FilterConfig}

/-- What qualifies a call for the tighter demand on its ends qualifies it for the looser one. -/
theorem Tightens.combine (tighter : tight.Tightens loose) {a b a' b' : Bool}
    (first : a = true → a' = true) (second : b = true → b' = true)
    (qualifies : tight.endpointMatch.combine a b = true) :
    loose.endpointMatch.combine a' b' = true := by
  rcases tighter.matched with same | ⟨either, both⟩
  · rw [← same]
    cases match_ : tight.endpointMatch with
    | both =>
      rw [match_] at qualifies
      obtain ⟨left, right⟩ := Bool.and_eq_true_iff.1 qualifies
      exact Bool.and_eq_true_iff.2 ⟨first left, second right⟩
    | either =>
      rw [match_] at qualifies
      exact Bool.or_eq_true_iff.2 ((Bool.or_eq_true_iff.1 qualifies).imp first second)
  · rw [both] at qualifies
    rw [either]
    exact Bool.or_eq_true_iff.2 (Or.inl (first (Bool.and_eq_true_iff.1 qualifies).1))

/-- The stage of a list of wanted modules. The test has to find more in a longer list. -/
theorem Tightens.wanted (tighter : tight.Tightens loose) (test : List String → String → Bool)
    (grows : ∀ {few many : List String} {path : String}, few ⊆ many → test few path = true →
      test many path = true)
    {narrow wide : List String} (narrows : Narrows narrow wide) {p q : String}
    (kept : narrow ≠ [] → tight.endpointMatch.combine (test narrow p) (test narrow q) = true) :
    wide ≠ [] → loose.endpointMatch.combine (test wide p) (test wide q) = true := by
  intro asked
  rcases narrows with rfl | nothing | ⟨some, sub⟩
  · exact tighter.combine id id (kept asked)
  · exact absurd nothing asked
  · exact tighter.combine (grows sub) (grows sub) (kept some)

end FilterConfig

namespace Filter

open CallGraph.FilterConfig

/-- More parts, or beginnings, are found in a path. -/
theorem any_mono {few many : List String} {test : String → Bool} (sub : few ⊆ many)
    (found : few.any test = true) : many.any test = true := by
  obtain ⟨part, here, found⟩ := List.any_eq_true.1 found
  exact List.any_eq_true.2 ⟨part, sub here, found⟩

/-! ### One verdict for each pair -/

variable {f : Filter} {e e' : Edge} {u v : Nat}

/-- A call is kept if it is not synthetic and no stage drops it. -/
theorem passes_iff_judge : f.passes e = true ↔ ∃ n m p q,
    (f.graph.node? e.caller = some n ∧ f.graph.node? e.callee = some m) ∧
    (n.modulePath = some p ∧ m.modulePath = some q) ∧ f.graph.isSyntheticEdge e = false ∧
    f.judge e n m p q = none := by
  unfold passes verdict
  rw [Option.isNone_iff_eq_none]
  cases f.graph.node? e.caller with
  | none => simp
  | some n =>
    cases f.graph.node? e.callee with
    | none => simp
    | some m =>
      dsimp only
      rw [stage_eq_none_iff]
      cases callerPath : n.modulePath <;> cases calleePath : m.modulePath <;>
        simp [callerPath, calleePath]

/-- The stages look at the ends of a call. -/
theorem judge_congr (caller : e.caller = e'.caller) (callee : e.callee = e'.callee) (n m : Node)
    (p q : String) : f.judge e n m p q = f.judge e' n m p q := by
  have focus : ∀ module, f.inFocus module e = f.inFocus module e' := by
    intro module
    unfold inFocus
    rw [caller, callee]
  unfold judge
  simp only [focus]

/-- **The edges of a pair stand or fall together**, apart from the synthetic ones. -/
theorem passes_of_pair (passes : f.passes e' = true) (caller : e.caller = e'.caller)
    (callee : e.callee = e'.callee) (real : f.graph.isSyntheticEdge e = false) :
    f.passes e = true := by
  obtain ⟨n, m, p, q, ends, paths, _, kept⟩ := passes_iff_judge.1 passes
  rw [← caller, ← callee] at ends
  exact passes_iff_judge.2 ⟨n, m, p, q, ends, paths, real, (judge_congr caller callee n m p q).trans kept⟩

/-! ### Tighter filters -/

variable {g : Graph} {tight loose : FilterConfig}

/-- Whether a call touches a module is a matter of the graph. -/
theorem inFocus_congr {f f' : Filter} (same : f.graph = f'.graph) (module : String) (e : Edge) :
    f.inFocus module e = f'.inFocus module e := by
  unfold inFocus calledFrom callsInto liesIn
  rw [same]

/-- **What a tighter filter keeps is kept.** -/
theorem passes_of_tightens (tighter : tight.Tightens loose)
    (passes : (Filter.bind g tight).value.passes e = true) :
    (Filter.bind g loose).value.passes e = true := by
  have graphs : (Filter.bind g tight).value.graph = (Filter.bind g loose).value.graph := by
    rw [graph_bind, graph_bind]
  obtain ⟨n, m, p, q, ends, paths, real, kept⟩ := passes_iff_judge.1 passes
  rw [judge_eq_none_iff, config_bind] at kept
  obtain ⟨own, exported, included, limited, ⟨spared, spared'⟩, focused⟩ := kept
  rw [graphs] at ends real
  refine passes_iff_judge.2 ⟨n, m, p, q, ends, paths, real, ?_⟩
  rw [judge_eq_none_iff, config_bind]
  refine ⟨fun asked => own (tighter.std asked), fun asked => exported (tighter.unexported asked),
    tighter.wanted begins any_mono tighter.included included,
    tighter.wanted mentions any_mono tighter.limited limited, ⟨?_, ?_⟩, fun module named => ?_⟩
  · exact Bool.eq_false_iff.2 fun found =>
      Bool.eq_false_iff.1 spared (any_mono tighter.ignored found)
  · exact Bool.eq_false_iff.2 fun found =>
      Bool.eq_false_iff.1 spared' (any_mono tighter.ignored found)
  · rw [focus_bind] at named focused
    rcases tighter.focus with same | nothing
    · rw [← inFocus_congr graphs]
      exact focused module (same ▸ named)
    · rw [nothing] at named
      cases named

theorem Passing.of_tightens (tighter : tight.Tightens loose) {u v : Nat}
    (passing : (Filter.bind g tight).value.Passing u v) :
    (Filter.bind g loose).value.Passing u v := by
  obtain ⟨i, e, listed, ends⟩ := passing
  obtain ⟨here, passes⟩ := mem_passing.1 listed
  rw [graph_bind] at here
  refine ⟨i, e, mem_passing.2 ⟨?_, passes_of_tightens tighter passes⟩, ends⟩
  rwa [graph_bind]

/-- **A pair that a tighter filter passes has the same passing edges for both.** -/
theorem numbersOf_eq (tighter : tight.Tightens loose) {u v : Nat}
    (passing : (Filter.bind g tight).value.Passing u v) :
    (Filter.bind g tight).value.numbersOf u v = (Filter.bind g loose).value.numbersOf u v := by
  obtain ⟨j, e', listed', caller', callee'⟩ := passing
  have passes' := (mem_passing.1 listed').2
  ext i
  refine exists_congr fun e => ?_
  rw [mem_passing, mem_passing, graph_bind, graph_bind, and_assoc, and_assoc]
  refine and_congr_right fun here => and_congr_left fun ⟨caller, callee⟩ => ?_
  -- What passes the loose filter is not synthetic, and the tight one keeps another edge of the pair.
  refine ⟨passes_of_tightens tighter, fun passes => ?_⟩
  obtain ⟨_, _, _, _, _, _, real, _⟩ := passes_iff_judge.1 passes
  rw [graph_bind] at real
  refine passes_of_pair passes' (caller.trans caller'.symm) (callee.trans callee'.symm) ?_
  rwa [graph_bind]

end Filter

/-! ### Parts of flows -/

/-- What is closer lies within the same bound. -/
theorem Within.anti {bound : Nat} {d d' : ℕ∞} (within : Within bound d) (closer : d' ≤ d) :
    Within bound d' :=
  ⟨closer.trans_lt within.1, fun limited => closer.trans_lt (within.2 limited)⟩

/-- A call that is near to a start along few calls is near to it along more. -/
theorem Walk.Near.mono {f f' : Filter} {direction : Direction} {bound start u v : Nat}
    (more : ∀ u v, f.Passing u v → f'.Passing u v) (near : Near f direction bound start u v) :
    Near f' direction bound start u v := by
  have closer : ∀ {v w : Nat}, Within bound (hops f.Passing [v] w) →
      Within bound (hops f'.Passing [v] w) := fun within => within.anti (hops_anti more _ _)
  cases direction with
  | callees => exact closer near
  | callers => exact closer near
  | both => exact Or.imp closer closer near

namespace Flow

/-- **One flow is part of another**: it has some of the nodes of the other, and some of its pairs, each
with the edge that stands for it there. -/
structure PartOf (small large : Flow) : Prop where
  nodes : small.nodes ⊆ large.nodes
  links : small.links ⊆ large.links

theorem partOf_of_links {small large : Flow} (links : small.links ⊆ large.links) :
    small.PartOf large := by
  refine ⟨fun v here => ?_, links⟩
  obtain ⟨link, listed, isEnd⟩ := mem_nodes.1 here
  exact mem_nodes.2 ⟨link, links listed, isEnd⟩

/-- **The flow of fewer pairs.** If a pair that the one holds anything of has the same edges in the
other, then the one is part of the other. -/
theorem Holds.partOf {small large : Flow} {few many : Nat → Nat → Set Nat} (left : small.Holds few)
    (right : large.Holds many) (same : ∀ u v, (few u v).Nonempty → few u v = many u v) :
    small.PartOf large := by
  refine partOf_of_links fun link here => ?_
  obtain ⟨u, v, i⟩ := link
  have least := (left.mem u v i).1 here
  rw [same u v ⟨i, least.1⟩] at least
  exact (right.mem u v i).2 least

/-- **The outcome of one selection is part of that of another**: its flow is part of the other's
flow, or both have been given up for the same cause. -/
inductive Narrowed {ε : Type} : Except ε Flow → Except ε Flow → Prop
  | stopped (cause : ε) : Narrowed (.error cause) (.error cause)
  | part {small large : Flow} : small.PartOf large → Narrowed (.ok small) (.ok large)

/-- Outcomes that are reported in the same way. -/
theorem Narrowed.report {ε ε' : Type} {x y : Except ε Flow} (narrowed : Narrowed x y)
    (translate : ε → ε') (reports : Bool) (failure : ε') :
    Narrowed ((x.mapError translate).bind fun flow => if reports then .ok flow else .error failure)
      ((y.mapError translate).bind fun flow => if reports then .ok flow else .error failure) := by
  cases narrowed with
  | stopped cause => exact .stopped (translate cause)
  | part inside =>
    cases reports with
    | true => exact .part inside
    | false => exact .stopped failure

end Flow

/-! ### Selections with tighter filters -/

section

variable {g : Graph} {tight loose : FilterConfig} {interrupt : Interrupt}

/-- Near calls of a tighter filter, among near calls of a looser one. -/
theorem partOf_of_tightens (tighter : tight.Tightens loose) {near near' : Nat → Nat → Prop}
    (closer : ∀ u v, near u v → near' u v) {small large : Flow}
    (left : small.Holds fun u v => {i | i ∈ (Filter.bind g tight).value.numbersOf u v ∧ near u v})
    (right : large.Holds fun u v =>
      {i | i ∈ (Filter.bind g loose).value.numbersOf u v ∧ near' u v}) :
    small.PartOf large := by
  refine left.partOf right fun u v some => ?_
  obtain ⟨i, passing, close⟩ := some
  ext j
  simp only [Set.mem_ofPred_eq, Filter.numbersOf_eq tighter ⟨i, passing⟩, close, closer u v close]

/-- Whether a depth map admits the calls of a pair. It looks at the ends of a call only. -/
def Admitted (depth : Option DepthMap) (u v : Nat) : Prop :=
  depth.all (·.admits ⟨u, v, {}⟩) = true

/-- What a filter passes and a depth map admits. -/
theorem holds_admitted (f : Filter) (depth : Option DepthMap) :
    (Flow.ofEdges ((f.graph.numberedEdges.filter fun e => f.passes e.1).filter
      fun e => depth.all (·.admits e.1))).Holds
      fun u v => {i | i ∈ f.numbersOf u v ∧ Admitted depth u v} := by
  refine (Flow.holds_ofEdges _).congr fun u v i => ?_
  constructor
  · rintro ⟨e, here, rfl, rfl⟩
    obtain ⟨passing, admitted⟩ := List.mem_filter.1 here
    exact ⟨⟨e, passing, rfl, rfl⟩, admitted⟩
  · rintro ⟨⟨e, passing, rfl, rfl⟩, admitted⟩
    exact ⟨e, List.mem_filter.2 ⟨passing, admitted⟩, rfl, rfl⟩

/-- The whole graph, as far as a depth map admits it. -/
theorem narrowed_selectWhole (tighter : tight.Tightens loose) (depth : Option DepthMap) :
    Flow.Narrowed (selectWhole g (Filter.bind g tight).value depth interrupt).run.value
      (selectWhole g (Filter.bind g loose).value depth interrupt).run.value := by
  rw [value_selectWhole, value_selectWhole]
  cases if 0 < g.nodes.size then interrupt.tripped? else none with
  | some cause => exact .stopped cause
  | none =>
    have left := holds_admitted (Filter.bind g tight).value depth
    have right := holds_admitted (Filter.bind g loose).value depth
    rw [Filter.graph_bind] at left right
    exact .part (partOf_of_tightens tighter (fun _ _ admitted => admitted) left right)

/-- A walk, from a node or from any other number. -/
theorem narrowed_toward (tighter : tight.Tightens loose) (direction : Direction)
    (bound start : Nat) :
    Flow.Narrowed (Walk.toward (Filter.bind g tight).value direction bound start interrupt)
      (Walk.toward (Filter.bind g loose).value direction bound start interrupt) := by
  have graphs : ∀ config, (Filter.bind g config).value.graph.contains start = g.contains start :=
    fun config => by rw [Filter.graph_bind]
  cases known : g.contains start with
  | false =>
    rw [Walk.toward_of_unknown ((graphs tight).trans known),
      Walk.toward_of_unknown ((graphs loose).trans known)]
    exact .part ⟨List.Subset.refl _, List.Subset.refl _⟩
  | true =>
    cases tripped : interrupt.tripped? with
    | some cause =>
      rw [Walk.toward_of_tripped ((graphs tight).trans known) tripped,
        Walk.toward_of_tripped ((graphs loose).trans known) tripped]
      exact .stopped cause
    | none =>
      obtain ⟨small, first, left⟩ : ∃ flow, Walk.toward (Filter.bind g tight).value direction bound
          start interrupt = .ok flow ∧ _ := Walk.holds_toward ((graphs tight).trans known) tripped
      obtain ⟨large, second, right⟩ : ∃ flow, Walk.toward (Filter.bind g loose).value direction bound
          start interrupt = .ok flow ∧ _ := Walk.holds_toward ((graphs loose).trans known) tripped
      rw [first, second]
      exact .part (partOf_of_tightens tighter
        (fun _ _ near => near.mono fun _ _ => Filter.Passing.of_tightens tighter) left right)

/-- The same walk with a report of it. -/
theorem narrowed_run (tighter : tight.Tightens loose) (direction : Direction)
    (bound start : Nat) :
    Flow.Narrowed (Walk.run (Filter.bind g tight).value direction bound start interrupt).run.value
      (Walk.run (Filter.bind g loose).value direction bound start interrupt).run.value := by
  rw [Walk.value_run_eq, Walk.value_run_eq, Filter.graph_bind, Filter.graph_bind]
  exact (narrowed_toward tighter direction bound start).report _ _ _

/-- **Tightening a filter only removes.** What is selected from a graph with a tighter configuration
is part of what is selected with a looser one, node for node and pair for pair, and the same edge
stands for a pair in both: whatever the depth map, and for walks of every sort from every start. A
selection that is interrupted is so with either, and one that is not has a flow. -/
theorem narrowed_of_tightens (tighter : tight.Tightens loose) (g : Graph) (interrupt : Interrupt) :
    (∀ depth, Flow.Narrowed
      (selectWhole g (Filter.bind g tight).value depth interrupt).run.value
      (selectWhole g (Filter.bind g loose).value depth interrupt).run.value) ∧
    (∀ direction bound start, Flow.Narrowed
        (Walk.toward (Filter.bind g tight).value direction bound start interrupt)
        (Walk.toward (Filter.bind g loose).value direction bound start interrupt) ∧
      Flow.Narrowed
        (Walk.run (Filter.bind g tight).value direction bound start interrupt).run.value
        (Walk.run (Filter.bind g loose).value direction bound start interrupt).run.value) ∧
    (interrupt.tripped? = none →
      (∀ depth, ∃ flow,
        (selectWhole g (Filter.bind g tight).value depth interrupt).run.value = .ok flow) ∧
      ∀ direction bound start, ∃ flow,
        Walk.toward (Filter.bind g tight).value direction bound start interrupt = .ok flow) := by
  refine ⟨narrowed_selectWhole tighter, fun direction bound start =>
    ⟨narrowed_toward tighter direction bound start, narrowed_run tighter direction bound start⟩,
    fun quiet => ⟨fun depth => ?_, fun direction bound start => ?_⟩⟩
  · obtain ⟨flow, selected, _⟩ := holds_selectWhole (Filter.graph_bind g tight) quiet depth
    exact ⟨flow, selected⟩
  · obtain ⟨flow, found, _⟩ := Walk.exists_toward quiet direction bound start
    exact ⟨flow, found⟩

end

/-- Whatever has to do with the program or its library, at one end at least. -/
def related : FilterConfig where
  includePrefixes := ["app", "lib"]
  endpointMatch := .either

/-- The public part of the network module, without tests. -/
def publicNet : FilterConfig where
  excludeStd := true
  excludeUnexported := true
  includePrefixes := ["app"]
  limitKeywords := ["net"]
  ignore := ["testing"]
  focus := some "app::net"

/-- Of four calls one is left. -/
theorem narrowed_of_tightens_publicNet : publicNet.Tightens related ∧
    (selectWhole Query.audited (Filter.bind Query.audited related).value none .none).run.value.map
      (·.edgeCount) = .ok 4 ∧
    (selectWhole Query.audited (Filter.bind Query.audited publicNet).value none .none).run.value.map
      (·.edgeCount) = .ok 1 ∧
    (∀ depth, Flow.Narrowed
      (selectWhole Query.audited (Filter.bind Query.audited publicNet).value depth .none).run.value
      (selectWhole Query.audited (Filter.bind Query.audited related).value depth .none).run.value) ∧
    ∃ flow, Walk.toward (Filter.bind Query.audited publicNet).value .both 1 2 .none = .ok flow := by
  have tighter : publicNet.Tightens related :=
    { std := fun _ => rfl
      unexported := fun _ => rfl
      included := Or.inr (Or.inr (by decide))
      limited := Or.inr (Or.inl rfl)
      ignored := List.nil_subset _
      matched := Or.inr ⟨rfl, rfl⟩
      focus := Or.inr rfl }
  obtain ⟨whole, _, flows⟩ := narrowed_of_tightens tighter Query.audited .none
  exact ⟨tighter, by decide +kernel, by decide +kernel, whole, (flows rfl).2 .both 1 2⟩

end CallGraph
