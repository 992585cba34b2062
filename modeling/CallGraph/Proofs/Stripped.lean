import CallGraph.Proofs.Records
import CallGraph.Proofs.Selection

/-!
**What a graph says without its synthetic nodes.**

The theory of `withoutSynthetic`, by the records of nodes. Each call that a node makes becomes one
call to every node at which it ends up, in the order of the calls.

* `endsAt` — the nodes at which a call to a node ends up, `mem_endsAt`;
* `callsFrom_withoutSynthetic` — the calls of a node that is kept;
* `firstCall_withoutSynthetic` — the first of them that passes a test;
* `firstCall_withoutSynthetic_of_real` — nothing changes without synthetic nodes;
* `WellFormed.withoutSynthetic` — the result is a graph like any other.
-/

namespace CallGraph.Graph

variable {g : Graph} {n m k : Node} {call : Call}

/-- A node that is not synthetic. -/
def realNode? (g : Graph) (v : Nat) : Option Node :=
  (g.node? v).filter fun n => !n.synthetic

theorem realNode?_eq_some_iff {v : Nat} :
    g.realNode? v = some n ↔ g.node? v = some n ∧ n.synthetic = false := by
  rw [realNode?, Option.filter_eq_some_iff, Bool.not_eq_true']

theorem isSynthetic_eq {v : Nat} (here : g.node? v = some n) : g.isSynthetic v = n.synthetic := by
  rw [isSynthetic, here]
  rfl

/-- The numbers that are kept are those of the nodes that are not synthetic. -/
theorem mem_kept_iff {v : Nat} : v ∈ g.kept ↔ ∃ n, g.realNode? v = some n := by
  rw [mem_kept]
  constructor
  · rintro ⟨inRange, other⟩
    obtain ⟨n, here⟩ := exists_node? inRange
    exact ⟨n, realNode?_eq_some_iff.2 ⟨here, isSynthetic_eq here ▸ other⟩⟩
  · rintro ⟨n, here⟩
    obtain ⟨here, other⟩ := realNode?_eq_some_iff.1 here
    exact ⟨lt_of_node? here, (isSynthetic_eq here).trans other⟩

/-- The nodes of the result are those that are not synthetic. -/
theorem exists_node?_withoutSynthetic :
    (∃ a, g.withoutSynthetic.node? a = some n) ↔
      (∃ v, g.node? v = some n) ∧ n.synthetic = false := by
  simp only [node?_withoutSynthetic, Option.bind_eq_some_iff]
  constructor
  · rintro ⟨a, v, kept, here⟩
    obtain ⟨m, real⟩ := mem_kept_iff.1 (List.mem_of_getElem? kept)
    obtain ⟨there, other⟩ := realNode?_eq_some_iff.1 real
    rw [here] at there
    cases there
    exact ⟨⟨v, here⟩, other⟩
  · rintro ⟨⟨v, here⟩, other⟩
    have kept : v ∈ g.kept := mem_kept_iff.2 ⟨n, realNode?_eq_some_iff.2 ⟨here, other⟩⟩
    obtain ⟨a, atA⟩ := List.mem_iff_getElem?.1 kept
    exact ⟨a, v, atA, here⟩

/-! ### Calls and where they end up -/

/-- The nodes at which a call to a node ends up. -/
def endsAt (g : Graph) (k : Node) : List Node :=
  ((g.find? k.id).map g.landings).getD [] |>.filterMap g.realNode?

theorem endsAt_of_node? (wf : g.WellFormed) {c : Nat} (here : g.node? c = some k) :
    g.endsAt k = (g.landings c).filterMap g.realNode? := by
  have found : g.find? k.id = some c :=
    (find?_eq_some_iff wf.distinct).2 ⟨lt_of_node? here, idOf_of_node? here⟩
  rw [endsAt, found]
  rfl

theorem mem_endsAt (wf : g.WellFormed) {c : Nat} (here : g.node? c = some k) : m ∈ g.endsAt k ↔
    m.synthetic = false ∧ ∃ w, g.node? w = some m ∧ Relation.ReflTransGen g.Chained c w := by
  rw [endsAt_of_node? wf here, List.mem_filterMap]
  simp only [realNode?_eq_some_iff, ← lands_iff]
  constructor
  · rintro ⟨w, lands, there, other⟩
    exact ⟨other, w, there,
      (mem_landings (lt_of_node? there) ((isSynthetic_eq there).trans other)).1 lands⟩
  · rintro ⟨other, w, there, lands⟩
    exact ⟨w, (mem_landings (lt_of_node? there) ((isSynthetic_eq there).trans other)).2 lands,
      there, other⟩

/-- The calls of a node, from the edges at its number. -/
theorem callsFrom_eq (wf : g.WellFormed) {u : Nat} (here : g.node? u = some n) :
    g.callsFrom n = (g.edges.toList.filter (·.caller == u)).filterMap fun e =>
      (g.node? e.callee).map fun m => (m, e.call) := by
  rw [callsFrom, List.filterMap_filter]
  refine List.filterMap_congr fun e _ => ?_
  by_cases caller : g.node? e.caller = some n
  · rw [if_pos caller, if_pos (beq_iff_eq.2 (wf.node?_inj caller here rfl))]
  · rw [if_neg caller, if_neg]
    intro same
    exact caller (eq_of_beq same ▸ here)

theorem map_outgoing (g : Graph) (u : Nat) :
    (g.outgoing u).map (·.1) = g.edges.toList.filter (·.caller == u) := by
  have edges : g.edges.toList = g.numberedEdges.map (·.1) := (List.zipIdx_map_fst 0 _).symm
  rw [outgoing, edges, List.filter_map]
  rfl

/-! ### The calls of a node that is kept -/

/-- A number leads to the same record in the result, unless that is synthetic. -/
theorem bind_renumber? (g : Graph) (v : Nat) :
    (g.renumber? v).bind g.withoutSynthetic.node? = g.realNode? v := by
  cases renumbered : g.renumber? v with
  | some a =>
    have atA := renumber?_eq_some_iff.1 renumbered
    obtain ⟨n, real⟩ := mem_kept_iff.1 (List.mem_of_getElem? atA)
    rw [real, Option.bind_some, node?_withoutSynthetic, atA]
    exact (realNode?_eq_some_iff.1 real).1
  | none =>
    rw [Option.bind_none, eq_comm, Option.eq_none_iff_forall_ne_some]
    intro n real
    obtain ⟨a, atA⟩ := List.mem_iff_getElem?.1 (mem_kept_iff.2 ⟨n, real⟩)
    rw [renumber?_eq_some_iff.2 atA] at renumbered
    cases renumbered

/-- The calls of a node of the result, from the edges before they are renumbered. -/
theorem callsFrom_withoutSynthetic_eq (g : Graph) (n : Node) :
    g.withoutSynthetic.callsFrom n = g.bridged.filterMap fun e =>
      if g.realNode? e.caller = some n then (g.realNode? e.callee).map fun m => (m, e.call)
      else none := by
  show (List.toArray _).toList.filterMap _ = _
  rw [List.filterMap_filterMap]
  refine List.filterMap_congr fun e _ => ?_
  rw [← bind_renumber? g e.caller, ← bind_renumber? g e.callee]
  cases g.renumber? e.caller <;> cases g.renumber? e.callee <;> simp

/-- In a list without repetitions that has one element with images, these are all images. -/
theorem flatMap_of_only {α β : Type} {l : List α} {f : α → List β} {a : α} (distinct : l.Nodup)
    (here : a ∈ l) (only : ∀ b ∈ l, b ≠ a → f b = []) : l.flatMap f = f a := by
  obtain ⟨before, after, rfl⟩ := List.append_of_mem here
  have apart := List.nodup_middle.1 distinct
  have absent : ∀ b ∈ before ++ after, b ≠ a := fun b there same =>
    (List.nodup_cons.1 apart).1 (same ▸ there)
  have left : before.flatMap f = [] := List.flatMap_eq_nil_iff.2 fun b there =>
    only b (List.mem_append_left _ there) (absent b (List.mem_append_left _ there))
  have right : after.flatMap f = [] := List.flatMap_eq_nil_iff.2 fun b there =>
    only b (List.mem_append_right _ (List.mem_cons_of_mem _ there))
      (absent b (List.mem_append_right _ there))
  rw [List.flatMap_append, List.flatMap_cons, left, right, List.append_nil, List.nil_append]

/-- **A node that is kept makes its calls to what they end up at**, in the same order. -/
theorem callsFrom_withoutSynthetic (wf : g.WellFormed) {u : Nat} (here : g.node? u = some n)
    (other : n.synthetic = false) : g.withoutSynthetic.callsFrom n =
      (g.callsFrom n).flatMap fun c => (g.endsAt c.1).map fun m => (m, c.2) := by
  have real : g.realNode? u = some n := realNode?_eq_some_iff.2 ⟨here, other⟩
  calc g.withoutSynthetic.callsFrom n
      = (g.outgoing u).flatMap fun e => ((g.landings e.1.callee).filterMap g.realNode?).map
          fun m => (m, e.1.call) := by
        rw [callsFrom_withoutSynthetic_eq, bridged, List.filterMap_flatMap,
          flatMap_of_only (nodup_kept g) (mem_kept_iff.2 ⟨n, real⟩)]
        · rw [List.filterMap_flatMap]
          refine List.flatMap_congr fun e _ => ?_
          rw [List.filterMap_map, List.map_filterMap]
          refine List.filterMap_congr fun w _ => ?_
          exact if_pos real
        · -- Edges with another caller are not calls of the node.
          intro v _ differ
          rw [List.filterMap_flatMap, List.flatMap_eq_nil_iff]
          intro e _
          rw [List.filterMap_map, List.filterMap_eq_nil_iff]
          intro w _
          refine if_neg fun same => differ ?_
          exact wf.node?_inj (realNode?_eq_some_iff.1 same).1 here rfl
    _ = (g.edges.toList.filter (·.caller == u)).flatMap fun e =>
          ((g.landings e.callee).filterMap g.realNode?).map fun m => (m, e.call) := by
        rw [← map_outgoing, List.flatMap_map]
    _ = (g.callsFrom n).flatMap fun c => (g.endsAt c.1).map fun m => (m, c.2) := by
        rw [callsFrom_eq wf here, List.filterMap_eq_flatMap_toList, List.flatMap_assoc]
        refine List.flatMap_congr fun e inEdges => ?_
        have listed := Array.mem_toList_iff.1 (List.mem_filter.1 inEdges).1
        obtain ⟨k, there⟩ := exists_node? (wf.ends e listed).2
        rw [there, Option.map_some, Option.toList_some, List.flatMap_singleton,
          endsAt_of_node? wf there]

/-- **The first call to another node that passes a test**: the first that ends up there. -/
theorem firstCall_withoutSynthetic (wf : g.WellFormed) {u : Nat} (here : g.node? u = some n)
    (other : n.synthetic = false) {p : Call → Bool} : g.withoutSynthetic.firstCall n m p =
      ((g.callsFrom n).find? fun c => decide (m ∈ g.endsAt c.1) && p c.2).map (·.2) := by
  rw [firstCall, callsFrom_withoutSynthetic wf here other]
  induction g.callsFrom n with
  | nil => rfl
  | cons c rest hyp =>
    rw [List.flatMap_cons, List.find?_append, List.find?_map]
    by_cases ends : m ∈ g.endsAt c.1 ∧ p c.2 = true
    · obtain ⟨first, found⟩ : ∃ k, (g.endsAt c.1).find? (fun k => decide (k = m)) = some k :=
        Option.isSome_iff_exists.1 (List.find?_isSome.2 ⟨m, ends.1, decide_eq_true rfl⟩)
      have test : ((fun c : Node × Call => decide (c.1 = m) && p c.2) ∘ fun m => (m, c.2)) =
          fun k => decide (k = m) := by
        funext k
        simp [ends.2]
      rw [test, found, List.find?_cons_of_pos (by simpa using ends)]
      rfl
    · have none : (g.endsAt c.1).find? ((fun c => decide (c.1 = m) && p c.2) ∘ fun m => (m, c.2)) =
          none := by
        rw [List.find?_eq_none]
        intro k inEnds fits
        obtain ⟨same, passes⟩ : k = m ∧ p c.2 = true := by simpa using fits
        exact ends ⟨same ▸ inEnds, passes⟩
      rw [none, List.find?_cons_of_neg (by simpa using ends)]
      exact hyp

theorem mem_callsFrom_withoutSynthetic (wf : g.WellFormed) :
    (m, call) ∈ g.withoutSynthetic.callsFrom n ↔
      n.synthetic = false ∧ ∃ k, (k, call) ∈ g.callsFrom n ∧ m ∈ g.endsAt k := by
  constructor
  · intro called
    obtain ⟨e, _, caller, _⟩ := mem_callsFrom.1 called
    obtain ⟨⟨u, here⟩, other⟩ := exists_node?_withoutSynthetic.1 ⟨_, caller⟩
    rw [callsFrom_withoutSynthetic wf here other, List.mem_flatMap] at called
    obtain ⟨⟨k, _⟩, first, ends⟩ := called
    obtain ⟨_, inEnds, same⟩ := List.mem_map.1 ends
    cases same
    exact ⟨other, k, first, inEnds⟩
  · rintro ⟨other, k, first, ends⟩
    obtain ⟨e, _, here, _⟩ := mem_callsFrom.1 first
    rw [callsFrom_withoutSynthetic wf here other, List.mem_flatMap]
    exact ⟨(k, call), first, List.mem_map.2 ⟨m, ends, rfl⟩⟩

/-- The roots that are kept are those that are not synthetic. -/
theorem exists_root_withoutSynthetic :
    (∃ r ∈ g.withoutSynthetic.roots, g.withoutSynthetic.node? r = some n) ↔
      (∃ r ∈ g.roots, g.node? r = some n) ∧ n.synthetic = false := by
  have renumbered : (∃ r ∈ g.withoutSynthetic.roots, g.withoutSynthetic.node? r = some n) ↔
      ∃ r ∈ g.roots, g.realNode? r = some n := by
    simp only [← bind_renumber?, Option.bind_eq_some_iff]
    constructor
    · rintro ⟨a, here, atA⟩
      obtain ⟨r, root, number⟩ := List.mem_filterMap.1 here
      exact ⟨r, root, a, number, atA⟩
    · rintro ⟨r, root, a, number, atA⟩
      exact ⟨a, List.mem_filterMap.2 ⟨r, root, number⟩, atA⟩
  simp only [renumbered, realNode?_eq_some_iff]
  constructor
  · rintro ⟨r, root, here, other⟩
    exact ⟨⟨r, root, here⟩, other⟩
  · rintro ⟨⟨r, root, here⟩, other⟩
    exact ⟨r, root, here, other⟩

/-! ### Graphs without synthetic nodes -/

/-- A call to a node ends up there if the node is not synthetic. -/
theorem mem_endsAt_of_real (wf : g.WellFormed) {c : Nat} (here : g.node? c = some k)
    (real : k.synthetic = false) : m ∈ g.endsAt k ↔ m = k := by
  rw [mem_endsAt wf here]
  constructor
  · rintro ⟨_, w, there, chain⟩
    rcases Relation.ReflTransGen.cases_head chain with same | ⟨_, step, _⟩
    · rw [← same, here] at there
      exact (Option.some.inj there).symm
    · rw [← isSynthetic_eq here, step.1] at real
      cases real
  · rintro rfl
    exact ⟨real, c, here, .refl⟩

/-- Nothing changes if there are no synthetic nodes. -/
theorem firstCall_withoutSynthetic_of_real (wf : g.WellFormed)
    (real : ∀ n ∈ g.nodes.toList, n.synthetic = false) (known : ∃ u, g.node? u = some n)
    (p : Call → Bool) : g.withoutSynthetic.firstCall n m p = g.firstCall n m p := by
  obtain ⟨u, here⟩ := known
  rw [firstCall_withoutSynthetic wf here (real n (exists_node?_iff.1 ⟨u, here⟩)), firstCall]
  refine congrArg (Option.map Prod.snd) (find?_congr fun c called => ?_)
  obtain ⟨e, _, _, callee, _⟩ := mem_callsFrom.1 called
  have ends := mem_endsAt_of_real (m := m) wf callee (real c.1 (exists_node?_iff.1 ⟨_, callee⟩))
  rw [decide_eq_decide.2 (ends.trans eq_comm)]

/-! ### The result is a graph like any other -/

theorem WellFormed.withoutSynthetic (wf : g.WellFormed) : g.withoutSynthetic.WellFormed := by
  have nodes : g.withoutSynthetic.nodes.toList.Sublist g.nodes.toList :=
    nodes_withoutSynthetic g ▸ List.filter_sublist
  refine ⟨(nodes.map _).nodup wf.distinct, fun e => ends_withoutSynthetic,
    lt_of_mem_roots_withoutSynthetic, fun n here => ?_, fun e here => ?_⟩
  · exact wf.nodeLines n (Array.mem_toList_iff.1 (nodes.subset (Array.mem_toList_iff.2 here)))
  · obtain ⟨_, _, _, _, first, inEdges, _, same, _⟩ := mem_edges_withoutSynthetic.1 here
    rw [← same]
    exact wf.callLines first inEdges

end CallGraph.Graph
