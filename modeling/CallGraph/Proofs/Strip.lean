import CallGraph.Graph.Strip
import CallGraph.Proofs.Distance
import CallGraph.Proofs.Growth
import Mathlib.Logic.Relation

/-!
**Leaving out synthetic nodes keeps the call structure.**

The theory of `withoutSynthetic`. A walk behind a call to a synthetic node finds exactly the other
nodes that chains of synthetic nodes lead to from there, so an edge of the result stands for such a
chain, and paths correspond to paths that enter equally many nodes that are not synthetic.

* `Chained` — the arcs of such chains, `Lands` — where a call ends up;
* `Walked` — the invariant of a walk (`walked_advance`), `mem_landings` — what it finds;
* `mem_kept`, `renumber?_eq_some_iff` — the nodes that are kept, and their numbers;
* `leads_of_leads_kept`, `reached_of_leads`, `leads_withoutSynthetic_iff` — paths there and back;
* `withoutSynthetic_exact` — the nodes, edges and distances of the result, and that walks end.
-/

namespace CallGraph

namespace Graph

variable {g : Graph}

/-- One step of a chain: from a synthetic node to one that it calls. -/
def Chained (g : Graph) (u v : Nat) : Prop :=
  g.isSynthetic u = true ∧ g.Arc u v

/-- **Where a call to a node may end up**: at the node, or, if that is synthetic, at what a chain of
synthetic nodes leads to. -/
def Lands (g : Graph) (c v : Nat) : Prop :=
  c = v ∨ g.isSynthetic c = true ∧ Relation.ReflTransGen g.Chained c v

theorem lt_of_isSynthetic {v : Nat} (synthetic : g.isSynthetic v = true) : v < g.nodes.size := by
  unfold isSynthetic node? at synthetic
  by_cases inRange : v < g.nodes.size
  · exact inRange
  · rw [Array.getElem?_eq_none (Nat.le_of_not_lt inRange)] at synthetic
    cases synthetic

/-- Nothing but a synthetic node begins a chain. -/
theorem lands_iff {c v : Nat} : g.Lands c v ↔ Relation.ReflTransGen g.Chained c v := by
  unfold Lands
  constructor
  · rintro (same | ⟨_, chain⟩)
    · rw [same]
    · exact chain
  · intro chain
    rcases Relation.ReflTransGen.cases_head chain with same | ⟨next, step, _⟩
    · exact Or.inl same
    · exact Or.inr ⟨step.1, chain⟩

/-! ### The walk behind a call -/

/-- **What holds of every state of a walk from `c`.** -/
structure Walked (g : Graph) (c : Nat) (s : Chain) : Prop where
  /-- What waits or has been looked at is synthetic, and a chain leads there. -/
  synthetic : ∀ v, v ∈ s.stack ∨ v ∈ s.seen →
    g.isSynthetic v = true ∧ Relation.ReflTransGen g.Chained c v
  /-- What has been found is not, and is called at the end of a chain. -/
  found : ∀ w ∈ s.found, g.isSynthetic w = false ∧
    ∃ v, Relation.ReflTransGen g.Chained c v ∧ g.isSynthetic v = true ∧ w ∈ g.calleesOf v
  first : c ∈ s.stack ∨ c ∈ s.seen
  /-- What a node calls has been dealt with once the node has been looked at. -/
  closed : ∀ v ∈ s.seen, ∀ w ∈ g.calleesOf v,
    if g.isSynthetic w then w ∈ s.stack ∨ w ∈ s.seen else w ∈ s.found
  nodup : s.seen.Nodup

theorem walked_start {c : Nat} (synthetic : g.isSynthetic c = true) :
    g.Walked c { stack := [c] } := by
  refine ⟨fun v here => ?_, fun w here => absurd here List.not_mem_nil,
    Or.inl (List.mem_singleton_self c), fun v here => absurd here List.not_mem_nil, List.nodup_nil⟩
  rcases here with here | here
  · rw [List.mem_singleton.1 here]
    exact ⟨synthetic, .refl⟩
  · exact absurd here List.not_mem_nil

/-- A node that has been looked at is passed over. -/
theorem walked_skip {c v : Nat} {rest : List Nat} {s : Chain} (known : g.Walked c s)
    (waiting : s.stack = v :: rest) (seen : v ∈ s.seen) : g.Walked c { s with stack := rest } := by
  have still : ∀ w, w ∈ s.stack ∨ w ∈ s.seen → w ∈ rest ∨ w ∈ s.seen := by
    intro w here
    rw [waiting, List.mem_cons] at here
    rcases here with (same | inRest) | inSeen
    · exact Or.inr (same ▸ seen)
    · exact Or.inl inRest
    · exact Or.inr inSeen
  refine ⟨fun w here => known.synthetic w ?_, known.found, still c known.first,
    fun w inSeen x called => ?_, known.nodup⟩
  · exact here.imp_left fun inRest => waiting ▸ List.mem_cons_of_mem v inRest
  · have dealt := known.closed w inSeen x called
    split at dealt
    · rename_i synthetic
      rw [if_pos synthetic]
      exact still x dealt
    · rename_i other
      rw [if_neg other]
      exact dealt

/-- A node is looked at. -/
theorem walked_look {c v : Nat} {rest : List Nat} {s : Chain} (known : g.Walked c s)
    (waiting : s.stack = v :: rest) (new : v ∉ s.seen) :
    g.Walked c {
      stack := ((g.calleesOf v).filter g.isSynthetic).reverse ++ rest
      seen := v :: s.seen
      found := s.found ++ (g.calleesOf v).filter fun w => !g.isSynthetic w } := by
  obtain ⟨synthetic, chain⟩ := known.synthetic v (Or.inl (waiting ▸ List.mem_cons_self))
  have inRange := lt_of_isSynthetic synthetic
  have still : ∀ w, w ∈ s.stack ∨ w ∈ s.seen →
      w ∈ ((g.calleesOf v).filter g.isSynthetic).reverse ++ rest ∨ w ∈ v :: s.seen := by
    intro w here
    rw [waiting, List.mem_cons] at here
    rcases here with (same | inRest) | inSeen
    · exact Or.inr (same ▸ List.mem_cons_self)
    · exact Or.inl (List.mem_append_right _ inRest)
    · exact Or.inr (List.mem_cons_of_mem v inSeen)
  refine ⟨fun w here => ?_, fun w here => ?_, still c known.first, fun x looked w called => ?_,
    List.nodup_cons.2 ⟨new, known.nodup⟩⟩
  · rw [List.mem_append, List.mem_reverse, List.mem_filter, List.mem_cons] at here
    rcases here with (⟨called, pushed⟩ | inRest) | same | inSeen
    · exact ⟨pushed, chain.tail ⟨synthetic, arc_iff.2 ⟨inRange, lt_of_isSynthetic pushed, called⟩⟩⟩
    · exact known.synthetic w (Or.inl (waiting ▸ List.mem_cons_of_mem v inRest))
    · exact same ▸ ⟨synthetic, chain⟩
    · exact known.synthetic w (Or.inr inSeen)
  · rcases List.mem_append.1 here with before | now
    · exact known.found w before
    · obtain ⟨called, other⟩ := List.mem_filter.1 now
      exact ⟨by simpa using other, v, chain, synthetic, called⟩
  · rcases List.mem_cons.1 looked with same | inSeen
    · rw [same] at called
      split
      · rename_i pushed
        refine Or.inl (List.mem_append_left _ ?_)
        exact List.mem_reverse.2 (List.mem_filter.2 ⟨called, pushed⟩)
      · rename_i other
        exact List.mem_append_right _ (List.mem_filter.2 ⟨called, by simpa using other⟩)
    · have dealt := known.closed x inSeen w called
      split at dealt
      · rename_i pushed
        rw [if_pos pushed]
        exact still w dealt
      · rename_i other
        rw [if_neg other]
        exact List.mem_append_left _ dealt

/-- **A step keeps the invariant.** -/
theorem walked_advance {c : Nat} {s : Chain} (known : g.Walked c s) :
    g.Walked c (g.advanceChain s) := by
  unfold advanceChain
  split
  · exact known
  · rename_i v rest waiting
    split
    · rename_i new
      exact walked_look known waiting new.2
    · rename_i old
      have inStack : v ∈ s.stack := waiting ▸ List.mem_cons_self
      have inRange := lt_of_isSynthetic (known.synthetic v (Or.inl inStack)).1
      have seen : v ∈ s.seen := by
        by_contra new
        exact old ⟨inRange, new⟩
      exact walked_skip known waiting seen

/-- What holds at the end of a walk: nothing waits. -/
theorem walked_run {c : Nat} (synthetic : g.isSynthetic c = true) :
    g.Walked c (g.chainLoop.run { stack := [c] }) ∧
      (g.chainLoop.run { stack := [c] }).stack = [] := by
  have kept : ∀ s, g.chainLoop.finished s = false → g.Walked c s → g.Walked c (g.chainLoop.step s) :=
    fun _ _ => walked_advance
  exact ⟨g.chainLoop.run_keeps kept (walked_start synthetic),
    List.isEmpty_iff.1 (g.chainLoop.finished_run _)⟩

/-- The walk looks at every synthetic node that a chain leads to. -/
theorem mem_seen_of_chain {c v : Nat} {s : Chain} (known : g.Walked c s) (done : s.stack = [])
    (chain : Relation.ReflTransGen g.Chained c v) (synthetic : g.isSynthetic v = true) :
    v ∈ s.seen := by
  induction chain with
  | refl => exact known.first.resolve_left (done ▸ List.not_mem_nil)
  | @tail u v _ step hyp =>
    have dealt := known.closed u (hyp step.1) v (arc_iff.1 step.2).2.2
    rw [if_pos synthetic] at dealt
    exact dealt.resolve_left (done ▸ List.not_mem_nil)

/-- **A call ends up exactly where chains lead to.** -/
theorem mem_landings {c w : Nat} (inRange : w < g.nodes.size) (other : g.isSynthetic w = false) :
    w ∈ g.landings c ↔ g.Lands c w := by
  rw [lands_iff, landings]
  by_cases synthetic : g.isSynthetic c = true
  · obtain ⟨known, done⟩ := walked_run synthetic
    rw [if_pos synthetic]
    constructor
    · intro here
      obtain ⟨_, v, chain, along, called⟩ := known.found w here
      exact chain.tail ⟨along, arc_iff.2 ⟨lt_of_isSynthetic along, inRange, called⟩⟩
    · intro chain
      rcases Relation.ReflTransGen.cases_tail chain with same | ⟨v, before, step⟩
      · rw [same, synthetic] at other
        cases other
      · have looked := mem_seen_of_chain known done before step.1
        have dealt := known.closed v looked w (arc_iff.1 step.2).2.2
        rwa [other, if_neg Bool.false_ne_true] at dealt
  · rw [if_neg synthetic, List.mem_singleton]
    constructor
    · intro same
      rw [same]
    · intro chain
      rcases Relation.ReflTransGen.cases_head chain with same | ⟨_, step, _⟩
      · exact same.symm
      · exact absurd step.1 synthetic

/-! ### The nodes that are kept -/

theorem mem_kept {v : Nat} : v ∈ g.kept ↔ v < g.nodes.size ∧ g.isSynthetic v = false := by
  rw [kept, List.mem_filter, nodeNumbers, List.mem_range, Bool.not_eq_true']

theorem nodup_kept (g : Graph) : g.kept.Nodup :=
  List.nodup_range.filter _

/-- A node gets its position among the nodes that are kept as its number. -/
theorem renumber?_eq_some_iff {v a : Nat} : g.renumber? v = some a ↔ g.kept[a]? = some v := by
  rw [renumber?, findIdx?_beq_eq_some_iff (nodup_kept g)]

/-- A list of things that there are, one for each number of a list. -/
theorem getElem?_filterMap {α β : Type} {f : α → Option β} {l : List α}
    (all : ∀ x ∈ l, (f x).isSome = true) (a : Nat) : (l.filterMap f)[a]? = l[a]?.bind f := by
  induction l generalizing a with
  | nil => rfl
  | cons x rest hyp =>
    obtain ⟨y, here⟩ := Option.isSome_iff_exists.1 (all x List.mem_cons_self)
    rw [List.filterMap_cons_some here]
    cases a with
    | zero => exact here.symm
    | succ a => exact hyp (fun z inRest => all z (List.mem_cons_of_mem x inRest)) a

theorem isSome_node? {v : Nat} (inRange : v < g.nodes.size) : (g.node? v).isSome = true := by
  rw [node?, Array.getElem?_eq_getElem inRange]
  rfl

theorem node?_withoutSynthetic (a : Nat) :
    g.withoutSynthetic.node? a = g.kept[a]?.bind g.node? := by
  show (g.kept.filterMap g.node?).toArray[a]? = _
  rw [List.getElem?_toArray, getElem?_filterMap fun v here => isSome_node? (mem_kept.1 here).1]

theorem size_withoutSynthetic (g : Graph) : g.withoutSynthetic.nodes.size = g.kept.length := by
  show (g.kept.filterMap g.node?).toArray.size = _
  rw [List.size_toArray, List.length_filterMap_eq_countP]
  exact List.countP_eq_length.2 fun v here => isSome_node? (mem_kept.1 here).1

/-- The nodes of a graph, by their numbers. -/
theorem filterMap_node? (g : Graph) : g.nodeNumbers.filterMap g.node? = g.nodes.toList := by
  have all : ∀ v ∈ g.nodeNumbers, (g.node? v).isSome = true :=
    fun v here => isSome_node? (List.mem_range.1 here)
  refine List.ext_getElem? fun i => ?_
  have listed : g.nodes.toList[i]? = g.node? i := Array.getElem?_toList
  rw [getElem?_filterMap all, listed, nodeNumbers]
  by_cases inRange : i < g.nodes.size
  · rw [List.getElem?_range inRange]
    rfl
  · rw [List.getElem?_eq_none (by simpa using inRange), node?, Array.getElem?_eq_none (by omega)]
    rfl

/-- The nodes that are kept are unchanged and in order. -/
theorem nodes_withoutSynthetic (g : Graph) :
    g.withoutSynthetic.nodes.toList = g.nodes.toList.filter fun n => !n.synthetic := by
  show g.kept.filterMap g.node? = _
  rw [← filterMap_node?, List.filter_filterMap, kept, List.filterMap_filter]
  refine congrArg (List.filterMap · g.nodeNumbers) (funext fun v => ?_)
  unfold isSynthetic
  cases g.node? v with
  | none => rfl
  | some n => cases synthetic : n.synthetic <;> simp [synthetic, Option.filter]

/-! ### The edges between them -/

/-- **An edge of the result stands for a call to a node and what it ends up at.** -/
theorem mem_edges_withoutSynthetic {a b : Nat} {call : Call} :
    ⟨a, b, call⟩ ∈ g.withoutSynthetic.edges ↔
      ∃ u v, g.kept[a]? = some u ∧ g.kept[b]? = some v ∧
        ∃ first ∈ g.edges, first.caller = u ∧ first.call = call ∧ g.Lands first.callee v := by
  show _ ∈ (g.bridged.filterMap _).toArray ↔ _
  rw [List.mem_toArray, List.mem_filterMap]
  constructor
  · rintro ⟨⟨u, v, data⟩, there, renumbered⟩
    dsimp only at renumbered
    split at renumbered
    · rename_i a' b' atA atB
      cases renumbered
      rw [renumber?_eq_some_iff] at atA atB
      refine ⟨u, v, atA, atB, ?_⟩
      simp only [bridged, List.mem_flatMap, List.mem_map, Edge.mk.injEq] at there
      obtain ⟨_, _, ⟨first, i⟩, listed, _, lands, rfl, rfl, data⟩ := there
      obtain ⟨here, caller⟩ := mem_outgoing.1 listed
      obtain ⟨inRange, other⟩ := mem_kept.1 (List.mem_of_getElem? atB)
      exact ⟨first, Array.mem_of_getElem? here, caller, data, (mem_landings inRange other).1 lands⟩
    · cases renumbered
  · rintro ⟨u, v, atA, atB, first, here, caller, rfl, lands⟩
    obtain ⟨i, here⟩ := Array.mem_iff_getElem?.1 here
    obtain ⟨inRange, other⟩ := mem_kept.1 (List.mem_of_getElem? atB)
    refine ⟨⟨u, v, first.call⟩, ?_, ?_⟩
    · simp only [bridged, List.mem_flatMap, List.mem_map]
      exact ⟨u, List.mem_of_getElem? atA, (first, i), mem_outgoing.2 ⟨here, caller⟩, v,
        (mem_landings inRange other).2 lands, rfl⟩
    · rw [renumber?_eq_some_iff.2 atA, renumber?_eq_some_iff.2 atB]

/-- The edges of the result join its nodes. -/
theorem ends_withoutSynthetic {e : Edge} (here : e ∈ g.withoutSynthetic.edges) :
    e.caller < g.withoutSynthetic.nodes.size ∧ e.callee < g.withoutSynthetic.nodes.size := by
  obtain ⟨u, v, atCaller, atCallee, _⟩ := mem_edges_withoutSynthetic.1 here
  rw [size_withoutSynthetic]
  exact ⟨(List.getElem?_eq_some_iff.1 atCaller).1, (List.getElem?_eq_some_iff.1 atCallee).1⟩

theorem arc_withoutSynthetic_iff {a b : Nat} :
    g.withoutSynthetic.Arc a b ↔ ∃ u v, g.kept[a]? = some u ∧ g.kept[b]? = some v ∧
      ∃ first ∈ g.edges, first.caller = u ∧ g.Lands first.callee v := by
  constructor
  · rintro ⟨⟨caller, callee, call⟩, here, rfl, rfl, _⟩
    obtain ⟨u, v, atA, atB, first, inEdges, leaves, _, lands⟩ := mem_edges_withoutSynthetic.1 here
    exact ⟨u, v, atA, atB, first, inEdges, leaves, lands⟩
  · rintro ⟨u, v, atA, atB, first, inEdges, leaves, lands⟩
    refine ⟨⟨a, b, first.call⟩, ?_, rfl, rfl, ?_⟩
    · exact mem_edges_withoutSynthetic.2 ⟨u, v, atA, atB, first, inEdges, leaves, rfl, lands⟩
    · rw [size_withoutSynthetic]
      exact ⟨(List.getElem?_eq_some_iff.1 atA).1, (List.getElem?_eq_some_iff.1 atB).1⟩

/-! ### Paths there and back -/

/-- Entering a node counts unless the node is synthetic. -/
def entry (g : Graph) (v : Nat) : Nat :=
  if g.isSynthetic v then 0 else 1

/-- A chain counts no more than the node at its end. -/
theorem leads_of_chain {c v : Nat} (synthetic : g.isSynthetic c = true)
    (chain : Relation.ReflTransGen g.Chained c v) : Leads g.Arc g.entry c (g.entry v) v := by
  induction chain with
  | refl =>
    rw [entry, if_pos synthetic]
    exact .here
  | @tail w x _ step hyp =>
    have free : g.entry w = 0 := if_pos step.1
    have path : Leads g.Arc g.entry c (0 + g.entry x) x := .hop (free ▸ hyp) step.2
    rwa [Nat.zero_add] at path

/-- One call, and the chain behind it. -/
theorem leads_of_lands {first : Edge} {v : Nat} (here : first ∈ g.edges)
    (left : first.caller < g.nodes.size) (right : v < g.nodes.size)
    (other : g.isSynthetic v = false) (lands : g.Lands first.callee v) :
    Leads g.Arc g.entry first.caller 1 v := by
  have one : g.entry v = 1 := if_neg (Bool.eq_false_iff.1 other)
  rcases lands with same | ⟨synthetic, chain⟩
  · have arc : g.Arc first.caller v := ⟨first, here, rfl, same, left, right⟩
    exact one ▸ Leads.single arc
  · have free : g.entry first.callee = 0 := if_pos synthetic
    have arc : g.Arc first.caller first.callee :=
      ⟨first, here, rfl, rfl, left, lt_of_isSynthetic synthetic⟩
    have path := (Leads.single arc).trans (leads_of_chain synthetic chain)
    rwa [free, one] at path

/-- A path of the result is one of the graph that enters as many nodes that are not synthetic. -/
theorem leads_of_leads_kept {a b k u : Nat} (atA : g.kept[a]? = some u)
    (path : Leads g.withoutSynthetic.Arc (fun _ => 1) a k b) :
    ∃ v, g.kept[b]? = some v ∧ Leads g.Arc g.entry u k v := by
  induction path with
  | here => exact ⟨u, atA, .here⟩
  | hop _ arc hyp =>
    obtain ⟨v, atB, before⟩ := hyp
    obtain ⟨v', w, atB', atC, first, here, rfl, lands⟩ := arc_withoutSynthetic_iff.1 arc
    rw [Option.some.inj (atB.symm.trans atB')] at before
    obtain ⟨left, _⟩ := mem_kept.1 (List.mem_of_getElem? atB')
    obtain ⟨right, other⟩ := mem_kept.1 (List.mem_of_getElem? atC)
    exact ⟨w, atC, before.trans (leads_of_lands here left right other lands)⟩

/-- Where a path of the graph has got to, told by the nodes that are kept: at one of them, or behind
a call that one of them makes. -/
def Reached (g : Graph) (a k w : Nat) : Prop :=
  ∃ b x, g.kept[b]? = some x ∧ Leads g.withoutSynthetic.Arc (fun _ => 1) a k b ∧
    if g.isSynthetic w then
      ∃ first ∈ g.edges, first.caller = x ∧ g.isSynthetic first.callee = true ∧
        Relation.ReflTransGen g.Chained first.callee w
    else x = w

theorem reached_of_leads {a k u w : Nat} (atA : g.kept[a]? = some u)
    (path : Leads g.Arc g.entry u k w) : g.Reached a k w := by
  induction path with
  | here =>
    refine ⟨a, u, atA, .here, ?_⟩
    rw [if_neg (Bool.eq_false_iff.1 (mem_kept.1 (List.mem_of_getElem? atA)).2)]
  | @hop k w z _ arc hyp =>
    obtain ⟨b, x, atB, before, last⟩ := hyp
    -- The call from `x` on which the arc lies, and where it may end up.
    obtain ⟨first, here, leaves, lands⟩ :
        ∃ first ∈ g.edges, first.caller = x ∧ g.Lands first.callee z := by
      split at last
      · rename_i synthetic
        obtain ⟨first, here, leaves, begins, chain⟩ := last
        exact ⟨first, here, leaves, Or.inr ⟨begins, chain.tail ⟨synthetic, arc⟩⟩⟩
      · obtain ⟨first, here, caller, callee, _⟩ := arc
        exact ⟨first, here, caller.trans last.symm, Or.inl callee⟩
    by_cases synthetic : g.isSynthetic z = true
    · refine ⟨b, x, atB, ?_, ?_⟩
      · rwa [entry, if_pos synthetic, Nat.add_zero]
      · rw [if_pos synthetic]
        rcases lands with same | ⟨begins, chain⟩
        · exact ⟨first, here, leaves, same ▸ synthetic, same ▸ .refl⟩
        · exact ⟨first, here, leaves, begins, chain⟩
    · have other := Bool.eq_false_iff.2 synthetic
      obtain ⟨c, atC⟩ := List.mem_iff_getElem?.1 (mem_kept.2 ⟨(arc_iff.1 arc).2.1, other⟩)
      have step : g.withoutSynthetic.Arc b c :=
        arc_withoutSynthetic_iff.2 ⟨x, z, atB, atC, first, here, leaves, lands⟩
      refine ⟨c, z, atC, ?_, ?_⟩
      · rw [entry, if_neg synthetic]
        exact .hop before step
      · rw [if_neg synthetic]

/-- Two nodes that are kept are joined by paths of the result as they are by paths of the graph. -/
theorem leads_withoutSynthetic_iff {a b u v : Nat} (atA : g.kept[a]? = some u)
    (atB : g.kept[b]? = some v) (k : Nat) :
    Leads g.withoutSynthetic.Arc (fun _ => 1) a k b ↔ Leads g.Arc g.entry u k v := by
  constructor
  · intro path
    obtain ⟨v', atB', found⟩ := leads_of_leads_kept atA path
    rwa [← Option.some.inj (atB.symm.trans atB')] at found
  · intro path
    obtain ⟨b', x, atB', found, same⟩ := reached_of_leads atA path
    rw [if_neg (Bool.eq_false_iff.1 (mem_kept.1 (List.mem_of_getElem? atB)).2)] at same
    rw [← same, ← renumber?_eq_some_iff] at atB
    rw [← renumber?_eq_some_iff, atB] at atB'
    rwa [Option.some.inj atB']

/-- **Hops of the result are the nodes that are not synthetic on a way through the graph.** -/
theorem hops_withoutSynthetic {a b u v : Nat} (atA : g.kept[a]? = some u)
    (atB : g.kept[b]? = some v) :
    hops g.withoutSynthetic.Arc [a] b = distance g.Arc g.entry [u] v := by
  refine distance_congr fun k => ?_
  simp only [List.mem_singleton, exists_eq_left]
  exact leads_withoutSynthetic_iff atA atB k

/-- **Leaving out synthetic nodes keeps the call structure of every graph.** The other nodes stay,
unchanged and in order; two of them have an edge for each call that ends up at the second, directly
or through synthetic nodes; distances count the nodes that are not synthetic; and every walk behind
a call ends. -/
theorem withoutSynthetic_exact (g : Graph) :
    g.withoutSynthetic.nodes.toList = (g.nodes.toList.filter fun n => !n.synthetic) ∧
    (∀ a, g.withoutSynthetic.node? a = g.kept[a]?.bind g.node?) ∧
    (∀ a b call, ⟨a, b, call⟩ ∈ g.withoutSynthetic.edges ↔
      ∃ u v, g.kept[a]? = some u ∧ g.kept[b]? = some v ∧
        ∃ first ∈ g.edges, first.caller = u ∧ first.call = call ∧
          (first.callee = v ∨ g.isSynthetic first.callee = true ∧
            Relation.ReflTransGen (fun x y => g.isSynthetic x = true ∧ g.Arc x y)
              first.callee v)) ∧
    (∀ a b : Fin g.kept.length, hops g.withoutSynthetic.Arc [a.val] b =
      distance g.Arc (fun v => if g.isSynthetic v then 0 else 1) [g.kept[a]] g.kept[b]) ∧
    ∀ c, g.chainLoop.finished (g.chainLoop.after (g.nodes.size * (g.edges.size + 1) + 1)
      { stack := [c] }) = true := by
  refine ⟨nodes_withoutSynthetic g, node?_withoutSynthetic, fun _ _ _ => mem_edges_withoutSynthetic,
    fun a b => ?_, fun c => ?_⟩
  · exact hops_withoutSynthetic (List.getElem?_eq_getElem a.2) (List.getElem?_eq_getElem b.2)
  · refine g.chainLoop.finished_after ?_
    show missing g.nodeNumbers [] * (g.edges.size + 1) + 1 ≤ _
    have all : missing g.nodeNumbers [] ≤ g.nodes.size :=
      List.countP_le_length.trans (Nat.le_of_eq List.length_range)
    exact Nat.add_le_add_right (Nat.mul_le_mul_right _ all) 1

end Graph

end CallGraph
