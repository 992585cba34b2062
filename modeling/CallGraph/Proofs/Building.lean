import CallGraph.Proofs.Ranges

/-!
**What has been built can be asked.**

Only two operations look for something under a number: an edge is added to the two nodes that it joins,
and stripping looks up every call and every declared root in its table of new numbers. A store that has
been built without looking in vain is sound, but for its roots, which nobody may have looked up yet.

* `Known` — a table of new numbers, `landings?_eq` — the walk behind a call, with the invariant
  `Chain.InRange`;
* `strip?_eq`, `strip?_eq_none` — stripping goes wrong exactly if a declared root is no node;
* `Sound` — what holds of every store that has been built (`sound_of_built`);
* `built_of_allFit` — operations whose numbers fit can be done.
-/

namespace CallGraph

/-- Only nodes have been put on the stack of a walk, or been found by it. -/
structure Chain.InRange (c : Chain) (n : Nat) : Prop where
  stack : ∀ v ∈ c.stack, v < n
  found : ∀ v ∈ c.found, v < n

theorem Store.Linked.outgoing_eq {s : Store} (linked : s.Linked) (v : Nat) :
    s.outgoing v = s.graph.outgoing v :=
  listed_eq (linked.leaving v)

namespace Access

open Program.Positions (filter? filter?_eq)

variable {s : Store} {table : List (Option Nat)}

/-! ### Walks behind calls -/

/-- A table that has the new number of every node. -/
def Known (s : Store) (table : List (Option Nat)) : Prop :=
  ∀ v < s.slots.size, table[v]? = some (s.graph.renumber? v)

/-- The nodes that get no number are the synthetic ones. -/
theorem isNone_renumber? {v : Nat} (inRange : v < s.slots.size) :
    (s.graph.renumber? v).isNone = s.graph.isSynthetic v := by
  have kept : (∃ a, s.graph.renumber? v = some a) ↔ s.graph.isSynthetic v = false := by
    simp only [Graph.renumber?_eq_some_iff]
    rw [← List.mem_iff_getElem?, Graph.mem_kept, s.size_graph, and_iff_right inRange]
  cases synthetic : s.graph.isSynthetic v with
  | false =>
    obtain ⟨a, number⟩ := kept.2 synthetic
    rw [number]
    rfl
  | true =>
    cases number : s.graph.renumber? v with
    | none => rfl
    | some a =>
      rw [kept.1 ⟨a, number⟩] at synthetic
      cases synthetic

/-- A walk starts with one node on its stack. -/
theorem inRange_singleton {v n : Nat} (here : v < n) : Chain.InRange { stack := [v] } n := by
  refine ⟨fun w first => ?_, fun w none => absurd none List.not_mem_nil⟩
  rwa [List.mem_singleton.1 first]

section

variable (linked : s.Linked)

include linked

/-- A step of a walk puts only nodes on the stack. -/
theorem inRange_advanceChain {c : Chain} (inRange : c.InRange s.slots.size) :
    (s.graph.advanceChain c).InRange s.slots.size := by
  unfold Graph.advanceChain
  cases waiting : c.stack with
  | nil => exact inRange
  | cons v rest =>
    have later : ∀ w ∈ rest, w < s.slots.size :=
      fun w here => inRange.stack w (waiting ▸ List.mem_cons_of_mem v here)
    have called : ∀ p : Nat → Bool, ∀ w ∈ (s.graph.calleesOf v).filter p, w < s.slots.size :=
      fun p w here => lt_of_mem_calleesOf linked (List.mem_filter.1 here).1
    dsimp only
    split
    · refine ⟨fun w here => ?_, fun w here => ?_⟩
      · rcases List.mem_append.1 here with pushed | old
        · exact called _ w (List.mem_reverse.1 pushed)
        · exact later w old
      · rcases List.mem_append.1 here with old | found
        · exact inRange.found w old
        · exact called _ w found
    · exact ⟨later, inRange.found⟩

theorem inRange_run {v : Nat} (here : v < s.slots.size) :
    (s.graph.chainLoop.run { stack := [v] }).InRange s.slots.size := by
  have kept : ∀ c : Chain, s.graph.chainLoop.finished c = false → c.InRange s.slots.size →
      (s.graph.chainLoop.step c).InRange s.slots.size := fun _ _ => inRange_advanceChain linked
  exact s.graph.chainLoop.run_keeps kept (inRange_singleton here)

/-- A call ends up at nodes. -/
theorem lt_of_mem_landings {v w : Nat} (here : v < s.slots.size) (lands : w ∈ s.graph.landings v) :
    w < s.slots.size := by
  unfold Graph.landings at lands
  split at lands
  · exact (inRange_run linked here).found w lands
  · rwa [List.mem_singleton.1 lands]

variable (known : Known s table)

include known

/-- A step of a walk finds the node on the stack, and the entries of the nodes that it calls. -/
theorem advanceChain?_eq {c : Chain} (inRange : c.InRange s.slots.size) :
    advanceChain? s table c = some (s.graph.advanceChain c) := by
  unfold advanceChain? Graph.advanceChain
  cases waiting : c.stack with
  | nil => rfl
  | cons v rest =>
    have here := inRange.stack v (waiting ▸ List.mem_cons_self)
    dsimp only
    rw [if_pos here, s.size_graph]
    by_cases old : v ∈ c.seen
    · rw [if_pos old, if_neg fun new => new.2 old]
    · have synthetic : filter? (fun w => table[w]?.map Option.isNone) (s.graph.calleesOf v) =
          some ((s.graph.calleesOf v).filter s.graph.isSynthetic) :=
        filter?_eq fun w called => by
          have inRange := lt_of_mem_calleesOf linked called
          rw [known w inRange, Option.map_some, isNone_renumber? inRange]
      have others : filter? (fun w => table[w]?.map Option.isSome) (s.graph.calleesOf v) =
          some ((s.graph.calleesOf v).filter fun w => !s.graph.isSynthetic w) :=
        filter?_eq fun w called => by
          have inRange := lt_of_mem_calleesOf linked called
          rw [known w inRange, Option.map_some, ← isNone_renumber? inRange, Option.not_isNone]
      rw [if_neg old, if_pos ⟨here, old⟩, calleesOf?_eq linked here]
      dsimp only [Option.bind_eq_bind, Option.bind_some]
      rw [synthetic, others]
      rfl

/-- **The walk behind a call stays among nodes.** -/
theorem landings?_eq {v : Nat} (here : v < s.slots.size) :
    landings? s table v = some (s.graph.landings v) := by
  unfold landings? Graph.landings
  rw [known v here, ← isNone_renumber? here]
  cases s.graph.renumber? v with
  | some a => rfl
  | none =>
    have walked : (chainLoop? s table).run (some { stack := [v] }) =
        some (s.graph.chainLoop.run { stack := [v] }) := by
      exact Loop.run_mayFail (l := s.graph.chainLoop)
        (fun _ _ inRange => advanceChain?_eq linked known inRange)
        (fun _ _ inRange => inRange_advanceChain linked inRange) (inRange_singleton here)
    dsimp only [Option.bind_eq_bind, Option.bind_some]
    rw [walked]
    rfl

theorem bridge?_eq (a : Nat) {first : Edge} (inRange : first.callee < s.slots.size) :
    bridge? s table a first = some ((s.graph.landings first.callee).filterMap fun w =>
      (s.graph.renumber? w).map fun b => ⟨a, b, first.call⟩) := by
  have numbers : (s.graph.landings first.callee).mapM (fun w => table[w]?) =
      some ((s.graph.landings first.callee).map s.graph.renumber?) :=
    mapM_eq_map fun w lands => known w (lt_of_mem_landings linked inRange lands)
  rw [bridge?, landings?_eq linked known inRange]
  dsimp only [Option.bind_eq_bind, Option.bind_some]
  rw [numbers, Option.bind_some, List.filterMap_map]
  rfl

/-- Stripping finds every call, and the new numbers of the nodes at which it ends up. -/
theorem mapM_bridgesAt? : ∃ parts, (List.range s.slots.size).mapM (bridgesAt? s table) = some parts ∧
    parts.flatten = s.bridges s.graph.renumber? := by
  have all : ∀ v ∈ List.range s.slots.size, bridgesAt? s table v =
      some ((s.graph.renumber? v).elim [] fun a => (s.outgoing v).flatMap fun x =>
        (s.graph.landings x.1.callee).filterMap fun w =>
          (s.graph.renumber? w).map fun b => ⟨a, b, x.1.call⟩) := by
    intro v here
    have inRange := List.mem_range.1 here
    rw [bridgesAt?, known v inRange, linked.outgoing_eq]
    cases s.graph.renumber? v with
    | none => rfl
    | some a =>
      dsimp only [Option.bind_eq_bind, Option.bind_some]
      rw [outgoing?_eq linked inRange]
      dsimp only [Option.bind_some]
      rw [mapM_eq_map fun x listed => bridge?_eq linked known a (ends_of_outgoing linked listed).2]
      rfl
  refine ⟨_, mapM_eq_map all, ?_⟩
  rw [← List.flatMap_def, Store.bridges]
  refine List.flatMap_congr fun v _ => ?_
  cases s.graph.renumber? v <;> rfl

end

/-! ### Stripping -/

theorem foldlM_addEdge? {es : List Edge}
    (ends : ∀ e ∈ es, e.caller < s.slots.size ∧ e.callee < s.slots.size) :
    es.foldlM addEdge? s = some (es.foldl Store.addEdge s) := by
  induction es generalizing s with
  | nil => rfl
  | cons e rest hyp =>
    obtain ⟨first, later⟩ := List.forall_mem_cons.1 ends
    have size : (s.addEdge e).slots.size = s.slots.size := Store.size_attach _ _ _
    have added : addEdge? s e = some (s.addEdge e) := if_pos (by simpa using first)
    rw [List.foldlM_cons, added]
    exact hyp (by rwa [size])

/-- The copy that stripping makes has an entry for every node. -/
theorem length_foldl_copyNode (ns : List Node) (copy : Store × List (Option Nat)) :
    (ns.foldl Store.copyNode copy).2.length = copy.2.length + ns.length := by
  induction ns generalizing copy with
  | nil => rfl
  | cons n rest hyp =>
    have more : (Store.copyNode copy n).2.length = copy.2.length + 1 := by
      unfold Store.copyNode
      split <;> simp
    rw [List.foldl_cons, hyp, more, List.length_cons]
    omega

theorem known_of_copied {copy : Store × List (Option Nat)}
    (copied : Store.Copied (s.slots.toList.map (·.node)) copy) : Known s copy.2 := by
  intro v inRange
  have length : copy.2.length = s.slots.size := by simp [copied.length]
  have here := List.getElem?_eq_getElem (length ▸ inRange : v < copy.2.length)
  have number : copy.2[v]?.join = s.graph.renumber? v := congrFun copied.numbers_eq v
  rw [here] at number ⊢
  exact congrArg some number

/-- **Stripping finds everything** if the declared roots are nodes. -/
theorem strip?_eq (inStep : s.InStep) : strip? s = some s.strip := by
  have copied := Store.copied_nodes inStep
  have known := known_of_copied copied
  obtain ⟨parts, found, calls⟩ := mapM_bridgesAt? inStep.linked known
  have ends : ∀ e ∈ s.bridges s.graph.renumber?,
      e.caller < ((s.slots.toList.map (·.node)).foldl Store.copyNode ({}, [])).1.slots.size ∧
        e.callee < ((s.slots.toList.map (·.node)).foldl Store.copyNode ({}, [])).1.slots.size := by
    rw [Store.bridges_eq inStep]
    intro e here
    obtain ⟨_, _, left, right, _⟩ :=
      Graph.mem_edges_withoutSynthetic.1 (Array.mem_toList_iff.1 here)
    exact ⟨copied.lt_of_kept left, copied.lt_of_kept right⟩
  have roots := mapM_eq_map fun r declared => known r (inStep.roots r declared)
  rw [strip?, Store.strip, copied.numbers_eq, found]
  dsimp only [Option.bind_eq_bind, Option.bind_some]
  rw [calls, foldlM_addEdge? ends, roots, Option.bind_some, Option.bind_some, List.filterMap_map]
  rfl

theorem mapM_eq_none {α β : Type} {f : α → Option β} {xs : List α} {a : α} (here : a ∈ xs)
    (fails : f a = none) : xs.mapM f = none := by
  induction xs with
  | nil => cases here
  | cons x rest hyp =>
    rw [List.mapM_cons]
    rcases List.mem_cons.1 here with rfl | later
    · rw [fails]
      rfl
    · rw [hyp later]
      cases f x <;> rfl

/-- **Stripping goes wrong at a declared root that is no node.** -/
theorem strip?_eq_none {r : Nat} (declared : r ∈ s.roots) (outside : s.slots.size ≤ r) :
    strip? s = none := by
  have length := length_foldl_copyNode (s.slots.toList.map (·.node)) ({}, [])
  have fails : ((s.slots.toList.map (·.node)).foldl Store.copyNode ({}, [])).2[r]? = none := by
    refine List.getElem?_eq_none ?_
    rw [length]
    simpa using outside
  rw [strip?, mapM_eq_none declared fails]
  cases (List.range s.slots.size).mapM
      (bridgesAt? s ((s.slots.toList.map (·.node)).foldl Store.copyNode ({}, [])).2) with
  | none => rfl
  | some parts =>
    dsimp only [Option.bind_eq_bind, Option.bind_some]
    cases parts.flatten.foldlM addEdge?
      ((s.slots.toList.map (·.node)).foldl Store.copyNode ({}, [])).1 <;> rfl

end Access

/-! ### What has been built -/

namespace Store

variable {s : Store}

/-- A store without its roots. -/
def unrooted (s : Store) : Store :=
  { s with roots := [] }

/-- **A sound store**: but for its roots it is in step. They are distinct, and may be no nodes. -/
structure Sound (s : Store) : Prop where
  inStep : s.unrooted.InStep
  distinct : s.roots.Nodup

theorem InStep.sound (inStep : s.InStep) : s.Sound :=
  ⟨⟨inStep.distinct, inStep.table, inStep.ends, inStep.leaving, inStep.entering, List.nodup_nil,
    fun _ here => absurd here List.not_mem_nil⟩, inStep.distinctRoots⟩

namespace Sound

variable (sound : s.Sound)

include sound

theorem linked : s.Linked :=
  ⟨sound.inStep.ends, sound.inStep.leaving, sound.inStep.entering⟩

/-- A sound store is in step if its roots are nodes. -/
theorem inStep_of_roots (roots : ∀ r ∈ s.roots, r < s.slots.size) : s.InStep :=
  ⟨sound.inStep.distinct, sound.inStep.table, sound.inStep.ends, sound.inStep.leaving,
    sound.inStep.entering, sound.distinct, roots⟩

theorem addNode (n : Node) : (s.addNode n).1.Sound := by
  have added := sound.inStep.addNode n
  unfold Store.addNode at added ⊢
  have same : s.unrooted.find? n.id = s.find? n.id := rfl
  rw [same] at added
  cases known : s.find? n.id with
  | some v => exact sound
  | none =>
    rw [known] at added
    exact ⟨added, sound.distinct⟩

theorem addEdge {e : Edge} (ends : e.caller < s.slots.size ∧ e.callee < s.slots.size) :
    (s.addEdge e).Sound :=
  ⟨sound.inStep.addEdge ends, sound.distinct⟩

theorem connect (caller callee : String) (call : Call) : (s.connect caller callee call).Sound := by
  unfold Store.connect
  split
  · rename_i u v atCaller atCallee
    exact sound.addEdge ⟨sound.inStep.lt_of_find? atCaller, sound.inStep.lt_of_find? atCallee⟩
  · exact sound

/-- Whatever number is declared. -/
theorem declareRoot (v : Nat) : (s.declareRoot v).Sound := by
  unfold Store.declareRoot
  split
  · exact sound
  · rename_i new
    exact ⟨sound.inStep, sound.distinct.append (List.nodup_singleton v)
      (List.disjoint_singleton.2 new)⟩

theorem declareId (id : String) : (s.declareId id).Sound := by
  unfold Store.declareId
  split
  · exact sound.declareRoot _
  · exact sound

theorem merge (d : Document) : (s.merge d).Sound := by
  refine List.foldlRecOn d.roots _ ?_ fun t sound id _ => sound.declareId id
  refine List.foldlRecOn d.edges _ ?_ fun t sound r _ => sound.connect r.caller r.callee r.toCall
  exact List.foldlRecOn d.nodes _ sound fun t sound r _ => sound.addNode r.toNode

end Sound

end Store

namespace Access

open Store (Sound)

variable {s t : Store}

/-- **An operation that does not go wrong keeps a store sound.** -/
theorem sound_of_perform? (sound : s.Sound) {op : Operation} (done : perform? s op = some t) :
    t.Sound := by
  cases op with
  | addNode n => exact Option.some.inj done ▸ sound.addNode n
  | addEdge e =>
    obtain ⟨ends, same⟩ := Option.ite_none_right_eq_some.1 done
    exact Option.some.inj same ▸ sound.addEdge (by simpa using ends)
  | connect caller callee call => exact Option.some.inj done ▸ sound.connect caller callee call
  | declareRoot v => exact Option.some.inj done ▸ sound.declareRoot v
  | merge d => exact Option.some.inj done ▸ sound.merge d
  | strip =>
    -- It has looked up all roots, so they are nodes.
    have roots : ∀ r ∈ s.roots, r < s.slots.size := fun r declared => by
      by_contra outside
      have fails : perform? s .strip = none := strip?_eq_none declared (Nat.le_of_not_lt outside)
      rw [fails] at done
      cases done
    have inStep := sound.inStep_of_roots roots
    have stripped : perform? s .strip = some s.strip := strip?_eq inStep
    rw [stripped] at done
    exact Option.some.inj done ▸ (Store.inStep_strip inStep).1.sound

/-- **Whatever has been built is sound.** -/
theorem sound_of_built (sound : s.Sound) {ops : List Operation} (built : ops.foldlM perform? s = some t) :
    t.Sound := by
  induction ops generalizing s with
  | nil => exact Option.some.inj built ▸ sound
  | cons op rest hyp =>
    rw [List.foldlM_cons] at built
    obtain ⟨between, first, later⟩ := Option.bind_eq_some_iff.1 built
    exact hyp (sound_of_perform? sound first) later

/-- An operation whose numbers are those of nodes does not go wrong. -/
theorem perform?_eq (inStep : s.InStep) {op : Operation} (fits : op.Fits s.graph) :
    perform? s op = some (s.perform op) := by
  cases op with
  | addEdge e =>
    have ends : e.caller < s.slots.size ∧ e.callee < s.slots.size := s.size_graph ▸ fits
    exact if_pos (by simpa using ends)
  | strip => exact strip?_eq inStep
  | _ => rfl

/-- **Operations whose numbers fit can be done**, one after another. -/
theorem built_of_allFit (inStep : s.InStep) {ops : List Operation}
    (fit : Operation.AllFit s.graph ops) :
    ops.foldlM perform? s = some (ops.foldl Store.perform s) := by
  induction ops generalizing s with
  | nil => rfl
  | cons op rest hyp =>
    obtain ⟨first, later⟩ := fit
    obtain ⟨kept, same⟩ := inStep.perform first
    rw [List.foldlM_cons, perform?_eq inStep first]
    exact hyp kept (same ▸ later)

end Access

end CallGraph
