import CallGraph.Proofs.Answer
import CallGraph.Proofs.Import
import CallGraph.Proofs.Stripped

/-!
**An exported graph gives the same answers.**

The document that a query writes of a whole program can be read back as a graph. That graph has other
numbers, and one call for each pair of nodes. Queries do not notice: asked again, the query gives the
same document, and walks find the same, since all that they look at is the first call between two
nodes that is kept.

* `shows_programFlow_reimported`, `run_export_stable` — the same query, asked again;
* `Walk.SameFirstCalls.shows_iff` — walks in graphs with the same first calls;
* `sameFirstCalls_reimported`, `run_reimported` — walks in a program that was exported unfiltered.
-/

namespace CallGraph

open CallGraph.Graph

/-- What is read has no synthetic nodes if the flow has none. -/
theorem Reimported.real {s g : Graph} {f : Flow} (reimported : Reimported s f g)
    (real : ∀ n ∈ s.nodes.toList, n.synthetic = false) : ∀ n ∈ g.nodes.toList, n.synthetic = false := by
  intro n here
  obtain ⟨v, _, atV⟩ := (reimported.nodes n).1 (exists_node?_iff.2 here)
  exact real n (exists_node?_iff.1 ⟨v, atV⟩)

/-! ### The same query, asked again -/

namespace Query

variable {g g' s : Graph} {plan : Plan} {n m : Node} {call : Call}

/-- Without a bound all nodes are close. -/
theorem close_of_unbounded (unbounded : plan.maxDepth = 0) : Close s plan n m ↔
    (∃ u, s.node? u = some n) ∧ ∃ v, s.node? v = some m := by
  constructor
  · rintro ⟨u, v, ⟨atU, atV⟩, _⟩
    exact ⟨⟨u, atU⟩, v, atV⟩
  · rintro ⟨⟨u, atU⟩, v, atV⟩
    exact ⟨u, v, ⟨atU, atV⟩, fun bounded => absurd unbounded bounded.ne'⟩

theorem real_withoutSynthetic (g : Graph) :
    ∀ n ∈ g.withoutSynthetic.nodes.toList, n.synthetic = false := by
  intro n here
  exact (exists_node?_withoutSynthetic.1 (exists_node?_iff.2 here)).2

section

variable (wf : s.WellFormed) (real : ∀ n ∈ s.nodes.toList, n.synthetic = false)
  (unbounded : plan.maxDepth = 0) (unfocused : plan.filter.focus = none)
  (reimported : Reimported s (programFlow s plan) g')

include wf real unbounded unfocused reimported

/-- **A selection shows the same when it is made again** from the graph that is read from it. -/
theorem shows_programFlow_reimported :
    (programFlow g'.withoutSynthetic plan).Shows g'.withoutSynthetic n m call ↔
      (programFlow s plan).Shows s n m call := by
  have of := of_programFlow wf unfocused
  have real' := reimported.real real
  rw [shows_programFlow reimported.wellFormed.withoutSynthetic unfocused,
    close_of_unbounded unbounded]
  simp only [exists_node?_withoutSynthetic]
  constructor
  · rintro ⟨⟨⟨known, _⟩, _⟩, first⟩
    rw [firstCall_withoutSynthetic_of_real reimported.wellFormed real' known] at first
    exact ((reimported.firstCall_eq_some_iff of wf).1 first).1
  · intro shown
    obtain ⟨hasN, hasM⟩ := of.has_of_shows wf shown
    have known := (reimported.nodes n).2 hasN
    have known' := (reimported.nodes m).2 hasM
    have kept := (mem_of_firstCall ((shows_programFlow wf unfocused).1 shown).2).2
    refine ⟨⟨⟨known, real' n (exists_node?_iff.1 known)⟩,
      known', real' m (exists_node?_iff.1 known')⟩, ?_⟩
    rw [firstCall_withoutSynthetic_of_real reimported.wellFormed real' known,
      reimported.firstCall_eq_some_iff of wf]
    exact ⟨shown, kept⟩

end

/-- So its answer is the same. -/
theorem answerOf_reimported (wf : g.WellFormed) (unbounded : plan.maxDepth = 0)
    (unfocused : plan.filter.focus = none)
    (reimported : Reimported g.withoutSynthetic (programFlow g.withoutSynthetic plan) g') :
    answerOf plan ⟨g'.withoutSynthetic, programFlow g'.withoutSynthetic plan⟩ =
      answerOf plan ⟨g.withoutSynthetic, programFlow g.withoutSynthetic plan⟩ := by
  have wf' := reimported.wellFormed.withoutSynthetic
  obtain ⟨counts, texts⟩ := renderFlow_congr (of_programFlow wf' unfocused) wf'
    (of_programFlow wf.withoutSynthetic unfocused) wf.withoutSynthetic
    fun n m call => shows_programFlow_reimported wf.withoutSynthetic (real_withoutSynthetic g)
      unbounded unfocused reimported
  simp only [answerOf, Answer.mk.injEq, true_and]
  exact ⟨texts plan.format plan.group, counts⟩

/-- The document that is answered is that of the selection. -/
theorem ofText_answerOf (wf : s.WellFormed) (document : plan.format = .json)
    (unfocused : plan.filter.focus = none) :
    Document.ofText (answerOf plan ⟨s, programFlow s plan⟩).body =
      .ok (Document.ofSelection s (programFlow s plan)) := by
  show Document.ofText (renderFlow _ _ plan.format _) = _
  rw [document]
  exact Document.ofText_ofSelection (of_programFlow wf unfocused) wf

/-- **A document of a whole program is a stable view of it.** A query for one without a bound and
without a focus is answered unless it is interrupted; the document is read back as a graph without a
note, and about that graph the query has the same answer. -/
theorem run_export_stable (wf : g.WellFormed) {request : Request} (interrupt : Interrupt)
    (valid : request.validate = .ok plan) (whole : plan.symbol = none)
    (document : plan.format = .json) (unbounded : plan.maxDepth = 0)
    (unfocused : plan.filter.focus = none) :
    ((effectiveInterrupt plan interrupt).tripped? = none →
      ∃ a, (run (fun _ => pure g) request interrupt).run.value = .ok a) ∧
    ∀ a, (run (fun _ => pure g) request interrupt).run.value = .ok a →
      ∃ d g', Document.ofText a.body = .ok d ∧ d.toGraph = ⟨g', []⟩ ∧
        (run (fun _ => pure g') request interrupt).run.value = .ok a := by
  have wf' := wf.withoutSynthetic
  obtain ⟨g', read, reimported⟩ := exists_reimported (of_programFlow wf' unfocused) wf'
  rw [value_run_of_whole valid whole]
  refine ⟨fun quiet => ?_, fun a answered => ?_⟩
  · rw [quiet, ite_self]
    exact ⟨_, rfl⟩
  · split at answered
    · cases answered
    · rename_i goes
      cases answered
      -- If there is a node to look at now, there was one before.
      have still : (if 0 < g'.withoutSynthetic.nodes.size then
          (effectiveInterrupt plan interrupt).tripped? else none) = none := by
        split
        · rename_i some
          obtain ⟨n, here⟩ := exists_node? some
          obtain ⟨v, _, atV⟩ := (reimported.nodes n).1 (exists_node?_withoutSynthetic.1 ⟨0, here⟩).1
          rwa [if_pos (Nat.zero_lt_of_lt (lt_of_node? atV))] at goes
        · rfl
      refine ⟨Document.ofSelection g.withoutSynthetic (programFlow g.withoutSynthetic plan), g',
        ofText_answerOf wf' document unfocused, read, ?_⟩
      rw [value_run_of_whole valid whole, still, answerOf_reimported wf unbounded unfocused reimported]

/-- A request for all of a program as a document, and what it means. -/
def exportApp : Request where
  moduleArgs := ["app"]
  excludeStd := false
  excludeUnexported := false
  maxDepth := some 0
  format := "json"

def exportAppPlan : Plan where
  build := { moduleArgs := ["app"], dir := none, algorithm := .rta, includeTests := false, tags := [] }
  symbol := none
  direction := .callees
  group := .byModule
  filter := {}
  maxDepth := 0
  format := .json
  debug := false
  timeoutMs := none

theorem validate_exportApp : exportApp.validate = .ok exportAppPlan := by decide +kernel

theorem wellFormed_throughThunk : throughThunk.WellFormed := by decide +kernel

theorem run_export_stable_throughThunk :
    throughThunk.WellFormed ∧ exportApp.validate = .ok exportAppPlan ∧
    exportAppPlan.symbol = none ∧ exportAppPlan.format = .json ∧ exportAppPlan.maxDepth = 0 ∧
    exportAppPlan.filter.focus = none ∧
    ∃ a d g', (run (fun _ => pure throughThunk) exportApp .none).run.value = .ok a ∧
      Document.ofText a.body = .ok d ∧ d.toGraph = ⟨g', []⟩ ∧
      (run (fun _ => pure g') exportApp .none).run.value = .ok a := by
  obtain ⟨answered, stable⟩ := run_export_stable wellFormed_throughThunk .none validate_exportApp
    rfl rfl rfl rfl
  obtain ⟨a, value⟩ := answered rfl
  obtain ⟨d, g', text, read, again⟩ := stable a value
  exact ⟨wellFormed_throughThunk, validate_exportApp, rfl, rfl, rfl, rfl, a, d, g', value, text, read,
    again⟩

end Query

/-! ### Walks in graphs with the same first calls -/

namespace Walk

variable {g g' : Graph} {c : FilterConfig} {n m k : Node} {call : Call}

/-- The arcs of a walk join the nodes between which some call is kept. -/
theorem passing_iff_firstCall (wf : g.WellFormed) {u v : Nat} :
    (⟨g, c, none⟩ : Filter).Passing u v ↔ ∃ n m, g.node? u = some n ∧ g.node? v = some m ∧
      ∃ call, g.firstCall n m (c.keeps n m) = some call := by
  simp only [exists_firstCall_iff]
  constructor
  · rintro ⟨i, e, passing, rfl, rfl⟩
    obtain ⟨listed, passes⟩ := Filter.mem_passing.1 passing
    have inEdges := Array.mem_of_getElem? listed
    obtain ⟨left, right⟩ := wf.ends e inEdges
    obtain ⟨n, atU⟩ := exists_node? left
    obtain ⟨m, atV⟩ := exists_node? right
    have kept : (⟨g, c, none⟩ : Filter).passes e = c.keeps n m e.call :=
      Filter.passes_eq_keeps rfl atU atV
    exact ⟨n, m, atU, atV, e.call, mem_callsFrom.2 ⟨e, inEdges, atU, atV, rfl⟩, kept ▸ passes⟩
  · rintro ⟨n, m, atU, atV, call, called, kept⟩
    obtain ⟨e, inEdges, caller, callee, rfl⟩ := mem_callsFrom.1 called
    obtain ⟨i, listed⟩ := Array.mem_iff_getElem?.1 inEdges
    have passes : (⟨g, c, none⟩ : Filter).passes e = c.keeps n m e.call :=
      Filter.passes_eq_keeps rfl caller callee
    exact ⟨i, e, Filter.mem_passing.2 ⟨listed, passes.trans kept⟩, wf.node?_inj caller atU rfl,
      wf.node?_inj callee atV rfl⟩

/-- Two graphs have the same first calls that are kept. -/
def SameFirstCalls (c : FilterConfig) (g g' : Graph) : Prop :=
  ∀ n m, g.firstCall n m (c.keeps n m) = g'.firstCall n m (c.keeps n m)

theorem SameFirstCalls.passing (same : SameFirstCalls c g g') (wf : g.WellFormed)
    (wf' : g'.WellFormed) {u v : Nat} (arc : (⟨g, c, none⟩ : Filter).Passing u v) :
    ∃ n m, g.node? u = some n ∧ g.node? v = some m ∧
      ∃ u' v', g'.node? u' = some n ∧ g'.node? v' = some m ∧
        (⟨g', c, none⟩ : Filter).Passing u' v' := by
  obtain ⟨n, m, atU, atV, call, first⟩ := (passing_iff_firstCall wf).1 arc
  rw [same n m] at first
  obtain ⟨e, _, atU', atV', _⟩ := mem_callsFrom.1 (mem_of_firstCall first).1
  exact ⟨n, m, atU, atV, e.caller, e.callee, atU', atV',
    (passing_iff_firstCall wf').2 ⟨n, m, atU', atV', call, first⟩⟩

theorem SameFirstCalls.hops_eq (same : SameFirstCalls c g g') (wf : g.WellFormed)
    (wf' : g'.WellFormed) {u v u' v' : Nat} (atU : g.node? u = some n) (atU' : g'.node? u' = some n)
    (atV : g.node? v = some m) (atV' : g'.node? v' = some m) :
    hops (⟨g, c, none⟩ : Filter).Passing [u] v = hops (⟨g', c, none⟩ : Filter).Passing [u'] v' := by
  have farther : ∀ {g g' : Graph} {u v u' v' : Nat}, SameFirstCalls c g g' → g.WellFormed →
      g'.WellFormed → g.node? u = some n → g'.node? u' = some n → g.node? v = some m →
      g'.node? v' = some m → hops (⟨g', c, none⟩ : Filter).Passing [u'] v' ≤
        hops (⟨g, c, none⟩ : Filter).Passing [u] v := by
    intro g g' u v u' v' same wf wf' atU atU' atV atV'
    refine hops_le_hops wf' (fun _ _ => same.passing wf wf') (fun r root => ?_) atV atV'
    rw [List.mem_singleton.1 root]
    exact ⟨n, atU, u', List.mem_singleton_self u', atU'⟩
  have back : SameFirstCalls c g' g := fun n m => (same n m).symm
  exact le_antisymm (farther back wf' wf atU' atU atV' atV) (farther same wf wf' atU atU' atV atV')

/-- **Walks look at nothing but first calls that are kept.** -/
theorem SameFirstCalls.shows_iff (same : SameFirstCalls c g g') (wf : g.WellFormed)
    (wf' : g'.WellFormed) {start start' : Nat} (first : g.node? start = some k)
    (first' : g'.node? start' = some k) {direction : Direction} {bound : Nat} {flow flow' : Flow}
    (holds : flow.Holds fun u v => {i | i ∈ (⟨g, c, none⟩ : Filter).numbersOf u v ∧
      Near ⟨g, c, none⟩ direction bound start u v})
    (holds' : flow'.Holds fun u v => {i | i ∈ (⟨g', c, none⟩ : Filter).numbersOf u v ∧
      Near ⟨g', c, none⟩ direction bound start' u v}) :
    flow.Shows g n m call ↔ flow'.Shows g' n m call := by
  have near : ∀ {u v u' v' : Nat}, g.node? u = some n → g'.node? u' = some n →
      g.node? v = some m → g'.node? v' = some m →
      (Near ⟨g, c, none⟩ direction bound start u v ↔
        Near ⟨g', c, none⟩ direction bound start' u' v') := by
    intro u v u' v' atU atU' atV atV'
    have down := same.hops_eq wf wf' first first' atU atU'
    have up := same.hops_eq wf wf' atV atV' first first'
    unfold Near
    cases direction <;> simp only [down, up]
  have left : flow.Shows g n m call ↔ _ := holds.shows_iff wf rfl
  have right : flow'.Shows g' n m call ↔ _ := holds'.shows_iff wf' rfl
  rw [left, right]
  constructor
  · rintro ⟨u, v, ⟨atU, atV⟩, close, found⟩
    rw [same n m] at found
    obtain ⟨e, _, atU', atV', _⟩ := mem_callsFrom.1 (mem_of_firstCall found).1
    exact ⟨e.caller, e.callee, ⟨atU', atV'⟩, (near atU atU' atV atV').1 close, found⟩
  · rintro ⟨u', v', ⟨atU', atV'⟩, close, found⟩
    rw [← same n m] at found
    obtain ⟨e, _, atU, atV, _⟩ := mem_callsFrom.1 (mem_of_firstCall found).1
    exact ⟨e.caller, e.callee, ⟨atU, atV⟩, (near atU atU' atV atV').2 close, found⟩

end Walk

/-! ### Walks in a program that was exported -/

/-- Where any filter keeps a call, one that only leaves out what is synthetic keeps the same. -/
theorem Filter.keeps_eq_keeps {c all : FilterConfig}
    (keepsAll : all = { endpointMatch := all.endpointMatch }) {n m : Node} {call : Call}
    (kept : c.keeps n m call = true) : all.keeps n m = c.keeps n m := by
  have left : Graph.node? { nodes := #[n, m] } 0 = some n := rfl
  have right : Graph.node? { nodes := #[n, m] } 1 = some m := rfl
  rw [keeps_eq, Bool.and_eq_true] at kept
  have keptAll : all.keeps n m {} = true := by
    have here := kept.2
    rw [keepsAll]
    unfold FilterConfig.keeps passes verdict at here ⊢
    simp only [left, right] at here ⊢
    split at here
    · cases here
    · rename_i real
      rw [if_neg real]
      split at here
      · rfl
      · cases here
  funext call
  rw [keeps_eq all, keeps_eq c, keptAll, kept.2]

/-- An id without blanks around it names the node that has it. -/
theorem Symbol.resolve_of_id {g : Graph} (wf : g.WellFormed) {n : Node} {v : Nat}
    (here : g.node? v = some n) (clean : Text.trim n.id = n.id) (nonempty : n.id ≠ "") :
    resolve g n.id = .ok v := by
  have byId : byRule g n.id .byId = some v :=
    (find?_eq_some_iff wf.distinct).2 ⟨lt_of_node? here, idOf_of_node? here⟩
  unfold resolve
  simp only [clean, if_neg nonempty, Rule.all, List.findSome?_cons, byId]

namespace Query

variable {g g' : Graph} {plan : Plan} {n m : Node} {call : Call}

/-- **The first calls are those of the program** from which the graph was exported unfiltered. -/
theorem sameFirstCalls_reimported (wf : g.WellFormed)
    (real : ∀ n ∈ g.nodes.toList, n.synthetic = false) (unbounded : plan.maxDepth = 0)
    (keepsAll : plan.filter = { endpointMatch := plan.filter.endpointMatch })
    (reimported : Reimported g.withoutSynthetic (programFlow g.withoutSynthetic plan) g')
    (c : FilterConfig) : Walk.SameFirstCalls c g g' := by
  intro n m
  have unfocused : plan.filter.focus = none := by rw [keepsAll]
  have wf' := wf.withoutSynthetic
  have kept_iff : ∀ {k : Node}, (∃ a, g.withoutSynthetic.node? a = some k) ↔
      ∃ v, g.node? v = some k := by
    intro k
    rw [exists_node?_withoutSynthetic]
    exact and_iff_left_of_imp fun known => real k (exists_node?_iff.1 known)
  refine Option.ext fun call => ?_
  rw [reimported.firstCall_eq_some_iff (of_programFlow wf' unfocused) wf',
    shows_programFlow wf' unfocused, close_of_unbounded unbounded, kept_iff, kept_iff]
  constructor
  · intro first
    obtain ⟨called, kept⟩ := mem_of_firstCall first
    obtain ⟨e, _, caller, callee, _⟩ := mem_callsFrom.1 called
    rw [firstCall_withoutSynthetic_of_real wf real ⟨_, caller⟩, Filter.keeps_eq_keeps keepsAll kept]
    exact ⟨⟨⟨⟨_, caller⟩, _, callee⟩, first⟩, kept⟩
  · rintro ⟨⟨⟨known, _⟩, first⟩, kept⟩
    rwa [firstCall_withoutSynthetic_of_real wf real known, Filter.keeps_eq_keeps keepsAll kept]
      at first

/-- **So a walk from a node is answered in the same way.** -/
theorem select_walk_eq (same : Walk.SameFirstCalls plan.filter g g')
    (wf : g.WellFormed) (wf' : g'.WellFormed) {start start' : Nat} (first : g.node? start = some n)
    (first' : g'.node? start' = some n) (clean : Text.trim n.id = n.id) (nonempty : n.id ≠ "")
    (interrupt : Interrupt) (unfocused : plan.filter.focus = none) :
    (selectSymbol g' plan n.id interrupt).run.value.map (answerOf plan) =
      (selectSymbol g plan n.id interrupt).run.value.map (answerOf plan) := by
  have resolved := Symbol.resolve_of_id wf first clean nonempty
  have resolved' := Symbol.resolve_of_id wf' first' clean nonempty
  have known : g.contains start = true := decide_eq_true (lt_of_node? first)
  have known' : g'.contains start' = true := decide_eq_true (lt_of_node? first')
  cases tripped : interrupt.tripped? with
  | some cause =>
    rw [value_selectSymbol_of_tripped resolved known tripped,
      value_selectSymbol_of_tripped resolved' known' tripped]
  | none =>
    obtain ⟨flow, value, holds⟩ := value_selectSymbol_of_quiet resolved known tripped
    obtain ⟨flow', value', holds'⟩ := value_selectSymbol_of_quiet resolved' known' tripped
    rw [Filter.bind_of_unfocused unfocused] at holds holds'
    obtain ⟨counts, texts⟩ := renderFlow_congr holds'.of_numbersOf wf' holds.of_numbersOf wf
      fun a b call => (same.shows_iff wf wf' first first' holds holds').symm
    rw [value, value']
    simp only [Except.map, answerOf]
    rw [counts.1, counts.2, texts]

theorem cleanOption_of_clean {id : String} (clean : Text.trim id = id) (nonempty : id ≠ "") :
    cleanOption (some id) = some id := by
  simp [cleanOption, clean, nonempty]

/-- Requests for it are answered in the same way, and unless they are given up. -/
theorem run_walk_eq (same : ∀ c, Walk.SameFirstCalls c g g') (wf : g.WellFormed)
    (wf' : g'.WellFormed) {start start' : Nat} (first : g.node? start = some n)
    (first' : g'.node? start' = some n) (clean : Text.trim n.id = n.id) (nonempty : n.id ≠ "")
    {walk : Request} (i : Interrupt) (symbol : walk.symbol = some n.id)
    (unfocused : cleanOption walk.focus = none) :
    (run (fun _ => pure g') walk i).run.value = (run (fun _ => pure g) walk i).run.value ∧
      ∀ plan, walk.validate = .ok plan → (effectiveInterrupt plan i).tripped? = none →
        ∃ a, (run (fun _ => pure g) walk i).run.value = .ok a := by
  rcases valid : walk.validate with e | plan
  · rw [value_run_of_error valid, value_run_of_error valid]
    exact ⟨rfl, fun plan other => by cases other⟩
  · obtain ⟨reference, focus⟩ := Request.of_validate valid
    rw [symbol, cleanOption_of_clean clean nonempty] at reference
    rw [unfocused] at focus
    simp only [value_run_of_ok valid, select, reference]
    refine ⟨select_walk_eq (same plan.filter) wf wf' first first' clean nonempty _ focus,
      fun plan' valid' quiet => ?_⟩
    cases valid'
    obtain ⟨flow, value, _⟩ := value_selectSymbol_of_quiet
      (Symbol.resolve_of_id wf first clean nonempty) (decide_eq_true (lt_of_node? first)) quiet
    rw [value]
    exact ⟨_, rfl⟩

/-- **An exported program gives the same answers.** If a program without synthetic nodes is exported
whole, with a filter that only leaves out what is synthetic, then its document is read back as a graph
without a note, and every walk without a focus from a node of the document has the same answer about
that graph as about the program. -/
theorem run_reimported (wf : g.WellFormed) (real : ∀ n ∈ g.nodes.toList, n.synthetic = false)
    {request : Request} {interrupt : Interrupt} (valid : request.validate = .ok plan)
    (whole : plan.symbol = none) (document : plan.format = .json) (unbounded : plan.maxDepth = 0)
    (keepsAll : plan.filter = { endpointMatch := plan.filter.endpointMatch })
    (quiet : (effectiveInterrupt plan interrupt).tripped? = none) :
    ∃ a d g', (run (fun _ => pure g) request interrupt).run.value = .ok a ∧
      Document.ofText a.body = .ok d ∧ d.toGraph = ⟨g', []⟩ ∧
      ∀ r ∈ d.nodes, Text.trim r.id = r.id → r.id ≠ "" →
        ∀ (walk : Request) (i : Interrupt), walk.symbol = some r.id → cleanOption walk.focus = none →
          (run (fun _ => pure g') walk i).run.value = (run (fun _ => pure g) walk i).run.value ∧
          ∀ plan', walk.validate = .ok plan' → (effectiveInterrupt plan' i).tripped? = none →
            ∃ a', (run (fun _ => pure g) walk i).run.value = .ok a' := by
  have unfocused : plan.filter.focus = none := by rw [keepsAll]
  have wf' := wf.withoutSynthetic
  obtain ⟨g', read, reimported⟩ := exists_reimported (of_programFlow wf' unfocused) wf'
  refine ⟨answerOf plan ⟨g.withoutSynthetic, programFlow g.withoutSynthetic plan⟩,
    Document.ofSelection g.withoutSynthetic (programFlow g.withoutSynthetic plan), g', ?_,
    ofText_answerOf wf' document unfocused, read,
    fun r listed clean nonempty walk i symbol focus => ?_⟩
  · rw [value_run_of_whole valid whole, quiet, ite_self]
  · obtain ⟨n, has, rfl⟩ := Document.mem_nodes_ofSelection.1 listed
    obtain ⟨start', first'⟩ := (reimported.nodes n).2 has
    obtain ⟨v, _, atV⟩ := has
    obtain ⟨start, first⟩ := (exists_node?_withoutSynthetic.1 ⟨v, atV⟩).1
    exact run_walk_eq (sameFirstCalls_reimported wf real unbounded keepsAll reimported) wf
      reimported.wellFormed first first' clean nonempty i symbol focus

/-- A request for all that a function calls or that calls it. -/
def aroundMain : Request where
  moduleArgs := ["app"]
  symbol := some "app::main"
  direction := "both"

theorem run_reimported_startsServer :
    startsServer.WellFormed ∧ (∀ n ∈ startsServer.nodes.toList, n.synthetic = false) ∧
    exportApp.validate = .ok exportAppPlan ∧ exportAppPlan.symbol = none ∧
    exportAppPlan.format = .json ∧ exportAppPlan.maxDepth = 0 ∧
    exportAppPlan.filter = { endpointMatch := exportAppPlan.filter.endpointMatch } ∧
    (effectiveInterrupt exportAppPlan .none).tripped? = none ∧
    ∃ a d g', (run (fun _ => pure startsServer) exportApp .none).run.value = .ok a ∧
      Document.ofText a.body = .ok d ∧ d.toGraph = ⟨g', []⟩ ∧ (∃ r ∈ d.nodes, r.id = "app::main") ∧
      (run (fun _ => pure g') aroundMain .none).run.value =
        (run (fun _ => pure startsServer) aroundMain .none).run.value := by
  have real : ∀ n ∈ startsServer.nodes.toList, n.synthetic = false := by decide +kernel
  obtain ⟨a, d, g', value, text, read, same⟩ := run_reimported wellFormed_startsServer real
    validate_exportApp rfl rfl rfl rfl (rfl : (effectiveInterrupt exportAppPlan .none).tripped? = none)
  -- The document lists the function, since the selection has it.
  have listed : ∃ r ∈ d.nodes, r.id = "app::main" := by
    have wf' := wellFormed_startsServer.withoutSynthetic
    rw [value_run_of_whole validate_exportApp rfl, show (effectiveInterrupt exportAppPlan .none).tripped? =
      none from rfl, ite_self] at value
    cases value
    rw [ofText_answerOf wf' rfl rfl] at text
    cases text
    have has : 0 ∈ (programFlow startsServer.withoutSynthetic exportAppPlan).nodes := by decide +kernel
    obtain ⟨n, here⟩ := (of_programFlow wf' rfl).exists_node wf' has
    have id : startsServer.withoutSynthetic.idOf 0 = "app::main" := by decide +kernel
    exact ⟨.ofNode n, Document.mem_nodes_ofSelection.2 ⟨n, ⟨0, has, here⟩, rfl⟩,
      (idOf_of_node? here).symm.trans id⟩
  refine ⟨wellFormed_startsServer, real, validate_exportApp, rfl, rfl, rfl, rfl, rfl, a, d, g', value,
    text, read, listed, ?_⟩
  obtain ⟨r, here, id⟩ := listed
  exact (same r here (by rw [id]; decide +kernel) (by rw [id]; decide) aroundMain .none
    (by rw [id]; rfl) rfl).1

end Query

end CallGraph
