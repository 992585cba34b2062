import CallGraph.Proofs.RoundTrip

/-!
**Leaving out synthetic nodes makes a graph normal, and a normal graph stays as it is.**

A graph without its synthetic nodes lists its edges caller by caller. To leave out the synthetic nodes
of a graph that has none is to put its edges into this order, and nothing is left to do if they are in
it.

* `Graph.Plain` — graphs without synthetic nodes, `withoutSynthetic_eq_regrouped` — what becomes of
  them;
* `Graph.ByCaller` — edges in the order of their callers, `regrouped_eq_self`;
* `plain_withoutSynthetic`, `byCaller_withoutSynthetic` — the result is of this form;
* `Graph.withoutSynthetic_normal` — leaving them out again changes nothing.
-/

namespace CallGraph

/-! ### Lists in the order of a key -/

/-- A list in the order of a key is the parts with the same key, one after another. -/
theorem flatMap_filter_eq_self {α : Type} {key : α → Nat} {xs : List α} {keys : List Nat}
    (ordered : xs.Pairwise fun a b => key a ≤ key b) (increasing : keys.Pairwise (· < ·))
    (all : ∀ a ∈ xs, key a ∈ keys) : (keys.flatMap fun k => xs.filter (key · == k)) = xs := by
  induction xs with
  | nil => simp
  | cons a xs hyp =>
    obtain ⟨least, later⟩ := List.pairwise_cons.1 ordered
    obtain ⟨first, rest⟩ := List.forall_mem_cons.1 all
    obtain ⟨small, big, split⟩ := List.append_of_mem first
    subst split
    obtain ⟨_, others, apart⟩ := List.pairwise_append.1 increasing
    -- The keys before that of the first element have no part, and those behind it do not see it.
    have none : ∀ k ∈ small, (a :: xs).filter (key · == k) = [] := by
      intro k here
      have less : k < key a := apart k here (key a) List.mem_cons_self
      refine List.filter_eq_nil_iff.2 fun b inList same => ?_
      have atLeast : key a ≤ key b := by
        rcases List.mem_cons.1 inList with rfl | inRest
        · exact le_rfl
        · exact least b inRest
      exact absurd (beq_iff_eq.1 same) (less.trans_le atLeast).ne'
    have skip : ∀ k ∈ big, (a :: xs).filter (key · == k) = xs.filter (key · == k) := by
      intro k here
      have less : key a < k := (List.pairwise_cons.1 others).1 k here
      exact List.filter_cons_of_neg (by simpa using less.ne)
    have before : ∀ k ∈ small, xs.filter (key · == k) = [] := fun k here =>
      List.eq_nil_of_sublist_nil (none k here ▸ (List.sublist_cons_self a xs).filter _)
    have same := hyp later rest
    rw [List.flatMap_append, List.flatMap_eq_nil_iff.2 before, List.flatMap_cons, List.nil_append]
      at same
    rw [List.flatMap_append, List.flatMap_eq_nil_iff.2 none, List.flatMap_cons, List.nil_append,
      List.flatMap_congr skip, List.filter_cons, if_pos (beq_self_eq_true (key a)), List.cons_append,
      same]

namespace Graph

variable {g : Graph}

/-- **A graph without synthetic nodes**, of which the edges join nodes and the roots are nodes. -/
structure Plain (g : Graph) : Prop where
  real : ∀ n ∈ g.nodes, n.synthetic = false
  ends : ∀ e ∈ g.edges, e.caller < g.nodes.size ∧ e.callee < g.nodes.size
  roots : ∀ r ∈ g.roots, r < g.nodes.size

/-- **Edges in the order of their callers.** -/
def ByCaller (g : Graph) : Prop :=
  g.edges.toList.Pairwise fun e e' => e.caller ≤ e'.caller

/-! ### What becomes of a plain graph -/

namespace Plain

variable (plain : g.Plain)
include plain

theorem isSynthetic_eq_false (v : Nat) : g.isSynthetic v = false := by
  cases here : g.node? v with
  | none => rw [isSynthetic, here, Option.any_none]
  | some n => exact (isSynthetic_eq here).trans (plain.real n (Array.mem_of_getElem? here))

/-- All nodes are kept. -/
theorem kept_eq : g.kept = g.nodeNumbers :=
  List.filter_eq_self.2 fun v _ => by rw [plain.isSynthetic_eq_false v]; rfl

/-- They keep their numbers. -/
theorem renumber?_eq {v : Nat} (inRange : v < g.nodes.size) : g.renumber? v = some v := by
  rw [renumber?_eq_some_iff, plain.kept_eq, nodeNumbers, List.getElem?_range inRange]

/-- Calls end up where they lead. -/
theorem bridged_eq : g.bridged = g.nodeNumbers.flatMap g.edgesFrom := by
  rw [bridged, plain.kept_eq]
  refine List.flatMap_congr fun v _ => ?_
  have lands : ∀ e ∈ g.outgoing v, (g.landings e.1.callee).map (fun w => (⟨v, w, e.1.call⟩ : Edge)) =
      [e.1] := by
    rintro ⟨e, i⟩ listed
    rw [landings, plain.isSynthetic_eq_false, if_neg Bool.false_ne_true, List.map_singleton,
      ← (mem_outgoing.1 listed).2]
  rw [List.flatMap_congr lands, edgesFrom, ← map_outgoing]
  exact List.map_eq_flatMap.symm

/-- **A plain graph is put into the order of the callers.** -/
theorem withoutSynthetic_eq_regrouped : g.withoutSynthetic = g.regrouped := by
  have nodes : g.withoutSynthetic.nodes = g.nodes := by
    show (g.kept.filterMap g.node?).toArray = g.nodes
    rw [plain.kept_eq, filterMap_node?]
  have edges : g.withoutSynthetic.edges = (g.nodeNumbers.flatMap g.edgesFrom).toArray := by
    show (g.bridged.filterMap _).toArray = _
    rw [plain.bridged_eq]
    refine congrArg List.toArray ((List.filterMap_congr fun e here => ?_).trans List.filterMap_some)
    obtain ⟨v, _, leaves⟩ := List.mem_flatMap.1 here
    have ends := plain.ends e (mem_edgesFrom.1 leaves).1
    rw [plain.renumber?_eq ends.1, plain.renumber?_eq ends.2]
  have roots : g.withoutSynthetic.roots = g.roots :=
    (List.filterMap_congr fun r here => plain.renumber?_eq (plain.roots r here)).trans
      List.filterMap_some
  show Graph.mk g.withoutSynthetic.nodes g.withoutSynthetic.edges g.withoutSynthetic.roots = _
  rw [nodes, edges, roots]
  rfl

end Plain

/-- **Edges that are in the order of their callers stay where they are.** -/
theorem ByCaller.regrouped_eq_self (ordered : g.ByCaller)
    (ends : ∀ e ∈ g.edges, e.caller < g.nodes.size) : g.regrouped = g := by
  have same : g.nodeNumbers.flatMap g.edgesFrom = g.edges.toList :=
    flatMap_filter_eq_self ordered List.pairwise_lt_range fun e here =>
      List.mem_range.2 (ends e (Array.mem_toList_iff.1 here))
  unfold regrouped
  rw [same]

/-! ### The result is of this form -/

theorem plain_withoutSynthetic (g : Graph) : g.withoutSynthetic.Plain where
  real n here := by
    have listed := Array.mem_toList_iff.2 here
    rw [nodes_withoutSynthetic, List.mem_filter, Bool.not_eq_true'] at listed
    exact listed.2
  ends e := ends_withoutSynthetic
  roots := lt_of_mem_roots_withoutSynthetic

theorem pairwise_kept (g : Graph) : g.kept.Pairwise (· < ·) :=
  List.pairwise_lt_range.filter _

/-- Nodes that are kept stay in order. -/
theorem renumber?_mono {u v a b : Nat} (order : u ≤ v) (atU : g.renumber? u = some a)
    (atV : g.renumber? v = some b) : a ≤ b := by
  obtain ⟨inA, rfl⟩ := List.getElem?_eq_some_iff.1 (renumber?_eq_some_iff.1 atU)
  obtain ⟨inB, rfl⟩ := List.getElem?_eq_some_iff.1 (renumber?_eq_some_iff.1 atV)
  by_contra later
  exact absurd order
    (List.pairwise_iff_getElem.1 g.pairwise_kept b a inB inA (Nat.lt_of_not_le later)).not_ge

theorem byCaller_withoutSynthetic (g : Graph) : g.withoutSynthetic.ByCaller := by
  -- The calls are collected caller by caller, and the numbers of callers stay in order.
  have collected : g.bridged.Pairwise fun e e' => e.caller ≤ e'.caller := by
    have caller : ∀ v, ∀ e ∈ (g.outgoing v).flatMap fun e =>
        (g.landings e.1.callee).map fun w => (⟨v, w, e.1.call⟩ : Edge), e.caller = v := by
      intro v e here
      obtain ⟨_, _, here⟩ := List.mem_flatMap.1 here
      obtain ⟨_, _, rfl⟩ := List.mem_map.1 here
      rfl
    refine List.pairwise_flatMap.2 ⟨fun v _ => ?_, g.pairwise_kept.imp fun less e here e' here' => ?_⟩
    · refine List.pairwise_of_forall_mem_list fun e here e' here' => ?_
      rw [caller v e here, caller v e' here']
    · rw [caller _ e here, caller _ e' here']
      exact less.le
  show List.Pairwise _ (List.toArray _).toList
  refine List.Pairwise.filterMap _ (fun e e' order d atE d' atE' => ?_) collected
  split at atE
  · rename_i atCaller _
    split at atE'
    · rename_i atCaller' _
      cases atE
      cases atE'
      exact renumber?_mono order atCaller atCaller'
    · cases atE'
  · cases atE

/-- **Leaving out synthetic nodes is done once and for all**, and makes a graph normal: no node is
synthetic, the edges are in the order of their callers, and leaving the synthetic nodes out of the
result gives the result itself. Of a graph that has none it keeps the nodes, the roots and the calls of
every node in their order. -/
theorem withoutSynthetic_normal (g : Graph) :
    let s := g.withoutSynthetic
    (∀ n ∈ s.nodes, n.synthetic = false) ∧
    s.edges.toList.Pairwise (fun e e' => e.caller ≤ e'.caller) ∧
    s.withoutSynthetic = s ∧
    (g.WellFormed → (∀ n ∈ g.nodes, n.synthetic = false) →
      s.nodes = g.nodes ∧ s.roots = g.roots ∧
      ∀ v, (s.outgoing v).map (fun e => (e.1.callee, e.1.call)) =
        (g.outgoing v).map fun e => (e.1.callee, e.1.call)) := by
  intro s
  have plain : s.Plain := g.plain_withoutSynthetic
  have ordered : s.ByCaller := g.byCaller_withoutSynthetic
  refine ⟨plain.real, ordered, ?_, fun wf real => ?_⟩
  · rw [plain.withoutSynthetic_eq_regrouped,
      ordered.regrouped_eq_self fun e here => (plain.ends e here).1]
  · have same : s = g.regrouped := Plain.withoutSynthetic_eq_regrouped ⟨real, wf.ends, wf.roots⟩
    have nodes : s.nodes = g.regrouped.nodes := congrArg Graph.nodes same
    have roots : s.roots = g.regrouped.roots := congrArg Graph.roots same
    refine ⟨nodes, roots, fun v => ?_⟩
    have calls : (s.outgoing v).map (·.1) = (g.outgoing v).map (·.1) := by
      rw [map_outgoing, map_outgoing, same]
      exact edgesFrom_regrouped wf v
    have said := congrArg (List.map fun e : Edge => (e.callee, e.call)) calls
    rwa [List.map_map, List.map_map] at said

/-- Two functions that call each other, listed with the second one first. -/
def shuffled : Graph where
  nodes := #[{ id := "app::ping", name := "ping", modulePath := some "app" },
    { id := "app::pong", name := "pong", modulePath := some "app" }]
  edges := #[⟨1, 0, {}⟩, ⟨0, 1, {}⟩, ⟨1, 1, {}⟩]
  roots := [1, 0]

/-- The edges of the first function come first, and those of the second one stay in their order. -/
theorem withoutSynthetic_normal_shuffled :
    shuffled.WellFormed ∧ (∀ n ∈ shuffled.nodes, n.synthetic = false) ∧
    let s := shuffled.withoutSynthetic
    s.edges = #[⟨0, 1, {}⟩, ⟨1, 0, {}⟩, ⟨1, 1, {}⟩] ∧ s.withoutSynthetic = s ∧
    s.nodes = shuffled.nodes ∧ s.roots = [1, 0] ∧
    ∀ v, (s.outgoing v).map (fun e => (e.1.callee, e.1.call)) =
      (shuffled.outgoing v).map fun e => (e.1.callee, e.1.call) := by
  have wf : shuffled.WellFormed := by decide +kernel
  have real : ∀ n ∈ shuffled.nodes, n.synthetic = false := by decide +kernel
  obtain ⟨_, _, again, same⟩ := withoutSynthetic_normal shuffled
  obtain ⟨nodes, roots, calls⟩ := same wf real
  exact ⟨wf, real, by decide +kernel, again, nodes, roots, calls⟩

end Graph

end CallGraph
