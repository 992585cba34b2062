import CallGraph.Proofs.Alike
import CallGraph.Proofs.Answer

/-!
**Answers do not depend on the order in which a graph was built.**

Two graphs with the same nodes, calls and declared roots say the same, so a query for the whole
program selects the same pairs of nodes from both and draws them alike. Only the choice between
several calls of a pair looks at an order, that of the calls of one caller, and only documents show
it.

* `Reordered` — graphs that differ in the order in which they were built, `Reordered.alike`;
* `Reordered.callsFrom_eq` — the calls of a node, if those of its id are in the same order;
* `joins_programFlow_iff`, `shows_programFlow_iff` — the selections from both;
* `run_reordered` — the answers about both.
-/

namespace CallGraph

namespace Graph

/-- **Graphs that differ in the order in which they were built**: they have the same nodes, the same
calls between ids, each equally often, and the same declared roots. -/
structure Reordered (g g' : Graph) : Prop where
  nodes : g.nodes.toList.Perm g'.nodes.toList
  calls : g.namedCalls.Perm g'.namedCalls
  roots : ∀ id, id ∈ g.roots.map g.idOf ↔ id ∈ g'.roots.map g'.idOf

/-- The calls of each caller are in the same order. -/
def InOrder (g g' : Graph) : Prop :=
  ∀ id, g.namedCalls.filter (·.1 == id) = g'.namedCalls.filter (·.1 == id)

variable {g g' : Graph} {n m : Node} {call : Call}

section

variable (same : Reordered g g') (wf : g.WellFormed) (wf' : g'.WellFormed)

include same wf wf'

theorem Reordered.readCall_eq (n : Node) : g.readCall n = g'.readCall n := by
  have named : ∀ id, g.named? id = g'.named? id := by
    intro id
    refine Option.ext fun n => ?_
    rw [named?_eq_some_iff wf, named?_eq_some_iff wf', exists_node?_iff, exists_node?_iff,
      same.nodes.mem_iff]
  funext c
  rw [readCall, readCall, named, named]

/-- **The order in which a graph was built is not part of what it says.** -/
theorem Reordered.alike : Alike g g' := by
  have nodes : ∀ n, (∃ v, g.node? v = some n) ↔ ∃ v, g'.node? v = some n := by
    intro n
    rw [exists_node?_iff, exists_node?_iff, same.nodes.mem_iff]
  refine ⟨nodes, fun n m call => ?_, fun n => ?_⟩
  · rw [callsFrom_eq_filterMap wf, callsFrom_eq_filterMap wf', same.readCall_eq wf wf']
    exact (same.calls.filterMap _).mem_iff
  · have root : ∀ {g : Graph}, g.WellFormed → ((∃ r ∈ g.roots, g.node? r = some n) ↔
        (∃ v, g.node? v = some n) ∧ n.id ∈ g.roots.map g.idOf) := by
      intro g wf
      constructor
      · rintro ⟨r, root, here⟩
        exact ⟨⟨r, here⟩, List.mem_map.2 ⟨r, root, idOf_of_node? here⟩⟩
      · rintro ⟨⟨v, here⟩, listed⟩
        obtain ⟨r, root, named⟩ := List.mem_map.1 listed
        have number : r = v := idOf_inj wf.distinct (wf.roots r root) (lt_of_node? here)
          (named.trans (idOf_of_node? here).symm)
        exact ⟨r, root, number ▸ here⟩
    rw [root wf, root wf', nodes, same.roots]

/-- The calls of a node are the same if those of its id are in the same order. -/
theorem Reordered.callsFrom_eq (inOrder : InOrder g g') (n : Node) :
    g.callsFrom n = g'.callsFrom n := by
  have own : ∀ {g : Graph}, g.WellFormed →
      g.callsFrom n = (g.namedCalls.filter (·.1 == n.id)).filterMap (g.readCall n) := by
    intro g wf
    rw [callsFrom_eq_filterMap wf, List.filterMap_filter]
    refine List.filterMap_congr fun c _ => ?_
    split
    · rfl
    · rename_i other
      refine if_neg fun here => other ?_
      exact beq_iff_eq.2 ((named?_eq_some_iff wf).1 here).2.symm
  rw [own wf, own wf', inOrder n.id, same.readCall_eq wf wf']

end

/-- The first call of a node that ends up at another one and passes a test is the same, if the first
of its calls that passes any test is. -/
theorem Alike.firstCall_withoutSynthetic (alike : Alike g g') (wf : g.WellFormed)
    (wf' : g'.WellFormed) (known : ∃ a, g.withoutSynthetic.node? a = some n)
    (calls : ∀ test, (g.callsFrom n).find? test = (g'.callsFrom n).find? test) (p : Call → Bool) :
    g.withoutSynthetic.firstCall n m p = g'.withoutSynthetic.firstCall n m p := by
  obtain ⟨⟨u, atU⟩, other⟩ := exists_node?_withoutSynthetic.1 known
  obtain ⟨u', atU'⟩ := (alike.nodes n).1 ⟨u, atU⟩
  rw [Graph.firstCall_withoutSynthetic wf atU other,
    Graph.firstCall_withoutSynthetic wf' atU' other, ← calls]
  refine congrArg (Option.map Prod.snd) (find?_congr fun c called => ?_)
  obtain ⟨e, _, _, callee, _⟩ := mem_callsFrom.1 called
  rw [decide_eq_decide.2 (alike.mem_endsAt wf wf' ⟨_, callee⟩)]

end Graph

/-- **Answers that agree** in all but the calls that a document shows, and in that too in some
cases. -/
structure Answer.Agrees (exactly : Prop) (a a' : Answer) : Prop where
  format : a.format = a'.format
  counts : a.nodeCount = a'.nodeCount ∧ a.edgeCount = a'.edgeCount
  drawing : a.format ≠ .json → a.body = a'.body
  document : exactly → a = a'

namespace Query

open CallGraph.Graph

variable {g g' s s' : Graph} {plan : Plan} {n m : Node} {call : Call}

/-! ### Selections from graphs that say the same -/

theorem close_iff (alike : Alike s s') (wf : s.WellFormed) (wf' : s'.WellFormed) :
    Close s plan n m ↔ Close s' plan n m := by
  have carried : ∀ {s s' : Graph}, Alike s s' → s.WellFormed → s'.WellFormed →
      Close s plan n m → Close s' plan n m := by
    rintro s s' alike wf wf' ⟨u, v, ⟨atU, atV⟩, near⟩
    obtain ⟨u', atU'⟩ := (alike.nodes n).1 ⟨u, atU⟩
    obtain ⟨v', atV'⟩ := (alike.nodes m).1 ⟨v, atV⟩
    rw [alike.hops_eq wf wf' atU atU', alike.hops_eq wf wf' atV atV'] at near
    exact ⟨u', v', ⟨atU', atV'⟩, near⟩
  exact ⟨carried alike wf wf', carried alike.symm wf' wf⟩

/-- They join the same nodes. -/
theorem joins_programFlow_iff (alike : Alike s s') (wf : s.WellFormed) (wf' : s'.WellFormed)
    (unfocused : plan.filter.focus = none) :
    (programFlow s plan).Joins s n m ↔ (programFlow s' plan).Joins s' n m := by
  rw [(of_programFlow wf unfocused).joins_iff_exists_shows,
    (of_programFlow wf' unfocused).joins_iff_exists_shows]
  simp only [shows_programFlow wf unfocused, shows_programFlow wf' unfocused, exists_and_left,
    close_iff alike wf wf', exists_firstCall_iff, alike.calls]

/-- They show the same calls if the first ones between two nodes are the same. -/
theorem shows_programFlow_iff (alike : Alike s s') (wf : s.WellFormed) (wf' : s'.WellFormed)
    (unfocused : plan.filter.focus = none) (first : ∀ n m p, (∃ a, s.node? a = some n) →
      s.firstCall n m p = s'.firstCall n m p) :
    (programFlow s plan).Shows s n m call ↔ (programFlow s' plan).Shows s' n m call := by
  rw [shows_programFlow wf unfocused, shows_programFlow wf' unfocused, ← close_iff alike wf wf']
  refine and_congr_right fun ⟨u, v, ends, _⟩ => ?_
  rw [first n m _ ⟨u, ends.1⟩]

/-! ### Answers about graphs that differ in order -/

theorem agrees_answerOf (same : Reordered g g') (wf : g.WellFormed) (wf' : g'.WellFormed)
    (unfocused : plan.filter.focus = none) :
    (answerOf plan ⟨g.withoutSynthetic, programFlow g.withoutSynthetic plan⟩).Agrees (InOrder g g')
      (answerOf plan ⟨g'.withoutSynthetic, programFlow g'.withoutSynthetic plan⟩) := by
  have alike := (same.alike wf wf').withoutSynthetic wf wf'
  have of := of_programFlow wf.withoutSynthetic unfocused
  have of' := of_programFlow wf'.withoutSynthetic unfocused
  obtain ⟨counts, drawings⟩ := renderFlow_drawing_congr of wf.withoutSynthetic of'
    wf'.withoutSynthetic fun n m =>
      joins_programFlow_iff alike wf.withoutSynthetic wf'.withoutSynthetic unfocused
  refine ⟨rfl, counts, drawings plan.format plan.group, fun inOrder => ?_⟩
  obtain ⟨_, texts⟩ := renderFlow_congr of wf.withoutSynthetic of' wf'.withoutSynthetic
    fun n m call => shows_programFlow_iff alike wf.withoutSynthetic wf'.withoutSynthetic unfocused
      fun n m p known => (same.alike wf wf').firstCall_withoutSynthetic wf wf' known
        (fun _ => by rw [same.callsFrom_eq wf wf' inOrder n]) p
  simp only [answerOf, Answer.mk.injEq, true_and]
  exact ⟨texts plan.format plan.group, counts⟩

/-- **Answers do not depend on the order in which a graph was built.** A request without a symbol
and without a focus gets the same counts and the same drawings, and the same document if the calls of
each caller are in the same order. If one run fails, so does the other, in the same way; runs that
are not interrupted do not fail. -/
theorem run_reordered (same : Reordered g g') (wf : g.WellFormed) (wf' : g'.WellFormed)
    (request : Request) (interrupt : Interrupt) (whole : cleanOption request.symbol = none)
    (unfocused : cleanOption request.focus = none) :
    (∀ plan, request.validate = .ok plan → (effectiveInterrupt plan interrupt).tripped? = none →
      ∃ a, (run (fun _ => pure g) request interrupt).run.value = .ok a) ∧
    (∀ e, (run (fun _ => pure g) request interrupt).run.value = .error e ↔
      (run (fun _ => pure g') request interrupt).run.value = .error e) ∧
    ∀ a, (run (fun _ => pure g) request interrupt).run.value = .ok a →
      ∃ a', (run (fun _ => pure g') request interrupt).run.value = .ok a' ∧
        a.Agrees (InOrder g g') a' := by
  rcases valid : request.validate with e | plan
  · rw [value_run_of_error valid, value_run_of_error valid]
    refine ⟨fun plan other => ?_, fun _ => Iff.rfl, fun a other => ?_⟩
    · cases other
    · cases other
  · obtain ⟨symbol, focus⟩ := Request.of_validate valid
    rw [whole] at symbol
    rw [unfocused] at focus
    have agree := agrees_answerOf same wf wf' focus
    have stops : (if 0 < g.withoutSynthetic.nodes.size then
        (effectiveInterrupt plan interrupt).tripped? else none) =
        if 0 < g'.withoutSynthetic.nodes.size then
          (effectiveInterrupt plan interrupt).tripped? else none :=
      if_congr ((same.alike wf wf').withoutSynthetic wf wf').size_pos_iff rfl rfl
    rw [value_run_of_whole valid symbol, value_run_of_whole valid symbol, ← stops]
    refine ⟨fun plan' valid' quiet => ?_, ?_⟩
    · cases valid'
      rw [quiet, ite_self]
      exact ⟨_, rfl⟩
    · split
      · exact ⟨fun _ => Iff.rfl, fun _ other => by cases other⟩
      · refine ⟨fun e => ⟨fun other => ?_, fun other => ?_⟩, fun a answered => ?_⟩
        · cases other
        · cases other
        · cases answered
          exact ⟨_, rfl, agree⟩

/-- A program that gets at a function directly and through a thunk. -/
def thunked : Graph where
  nodes := #[{ id := "app::main", name := "main", modulePath := some "app", exported := true },
    { id := "app::run$thunk", name := "run$thunk", synthetic := true },
    { id := "app::run", name := "run", modulePath := some "app", exported := true }]
  edges := #[⟨0, 2, { site := some ⟨"src/main.rs", 3⟩ }⟩, ⟨0, 1, {}⟩, ⟨1, 2, {}⟩]
  roots := [0]

/-- The same program, built in another order. -/
def thunkedFirst : Graph where
  nodes := #[{ id := "app::run", name := "run", modulePath := some "app", exported := true },
    { id := "app::run$thunk", name := "run$thunk", synthetic := true },
    { id := "app::main", name := "main", modulePath := some "app", exported := true }]
  edges := #[⟨1, 0, {}⟩, ⟨2, 1, {}⟩, ⟨2, 0, { site := some ⟨"src/main.rs", 3⟩ }⟩]
  roots := [2]

theorem wellFormed_thunked : thunked.WellFormed := by decide +kernel

theorem wellFormed_thunkedFirst : thunkedFirst.WellFormed := by decide +kernel

theorem reordered_thunked : Reordered thunked thunkedFirst := by
  refine ⟨by decide +kernel, by decide +kernel, fun id => ?_⟩
  have left : thunked.roots.map thunked.idOf = ["app::main"] := by decide +kernel
  have right : thunkedFirst.roots.map thunkedFirst.idOf = ["app::main"] := by decide +kernel
  rw [left, right]

/-- A request for the whole of a program, and what it means. -/
def drawApp : Request where
  moduleArgs := ["app"]

def drawAppPlan : Plan where
  build := { moduleArgs := ["app"], dir := none, algorithm := .rta, includeTests := false, tags := [] }
  symbol := none
  direction := .callees
  group := .byModule
  filter := { excludeStd := true, excludeUnexported := true }
  maxDepth := defaultGraphDepth
  format := .mermaid
  debug := false
  timeoutMs := none

theorem validate_drawApp : drawApp.validate = .ok drawAppPlan := by decide +kernel

theorem run_reordered_thunked :
    Reordered thunked thunkedFirst ∧ thunked.WellFormed ∧ thunkedFirst.WellFormed ∧
    cleanOption drawApp.symbol = none ∧ cleanOption drawApp.focus = none ∧
    drawApp.validate = .ok drawAppPlan ∧
    (effectiveInterrupt drawAppPlan .none).tripped? = none ∧
    ∃ a a', (run (fun _ => pure thunked) drawApp .none).run.value = .ok a ∧
      (run (fun _ => pure thunkedFirst) drawApp .none).run.value = .ok a' ∧
      a.Agrees (InOrder thunked thunkedFirst) a' := by
  obtain ⟨answered, _, agree⟩ := run_reordered reordered_thunked wellFormed_thunked
    wellFormed_thunkedFirst drawApp .none rfl rfl
  obtain ⟨a, value⟩ := answered drawAppPlan validate_drawApp rfl
  obtain ⟨a', value', same⟩ := agree a value
  exact ⟨reordered_thunked, wellFormed_thunked, wellFormed_thunkedFirst, rfl, rfl,
    validate_drawApp, rfl, a, a', value, value', same⟩

end Query

end CallGraph
