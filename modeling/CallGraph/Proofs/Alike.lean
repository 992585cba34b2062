import CallGraph.Proofs.Stripped

/-!
**Graphs that say the same.**

Two graphs may differ in their numbers and still have the same nodes, the same calls between them and
the same declared roots. What does not look at the order of nodes and calls is then the same in both.

* `Alike` — graphs that say the same, `Alike.withoutSynthetic` — also without synthetic nodes;
* `starts_iff` — the entry points, by their records, `Alike.starts_iff`;
* `Alike.hops_eq` — nodes are equally far from the entry points.
-/

namespace CallGraph.Graph

/-- **Graphs that say the same**, whatever the numbers and the order of calls. -/
structure Alike (g g' : Graph) : Prop where
  nodes : ∀ n, (∃ v, g.node? v = some n) ↔ ∃ v, g'.node? v = some n
  calls : ∀ n m call, (m, call) ∈ g.callsFrom n ↔ (m, call) ∈ g'.callsFrom n
  roots : ∀ n, (∃ r ∈ g.roots, g.node? r = some n) ↔ ∃ r ∈ g'.roots, g'.node? r = some n

variable {g g' : Graph} {n m k : Node}

theorem Alike.symm (alike : Alike g g') : Alike g' g :=
  ⟨fun n => (alike.nodes n).symm, fun n m call => (alike.calls n m call).symm,
    fun n => (alike.roots n).symm⟩

/-- The arcs of one lead between the same nodes as those of the other. -/
theorem Alike.arc (alike : Alike g g') {u v : Nat} (arc : g.Arc u v) :
    ∃ n m, g.node? u = some n ∧ g.node? v = some m ∧
      ∃ u' v', g'.node? u' = some n ∧ g'.node? v' = some m ∧ g'.Arc u' v' := by
  obtain ⟨e, here, rfl, rfl, left, right⟩ := arc
  obtain ⟨n, atU⟩ := exists_node? left
  obtain ⟨m, atV⟩ := exists_node? right
  have called : (m, e.call) ∈ g.callsFrom n := mem_callsFrom.2 ⟨e, here, atU, atV, rfl⟩
  obtain ⟨e', here', atU', atV', _⟩ := mem_callsFrom.1 ((alike.calls n m e.call).1 called)
  exact ⟨n, m, atU, atV, e'.caller, e'.callee, atU', atV', e', here', rfl, rfl, lt_of_node? atU',
    lt_of_node? atV'⟩

/-- Neither has a node if the other has none. -/
theorem Alike.size_pos_iff (alike : Alike g g') : 0 < g.nodes.size ↔ 0 < g'.nodes.size := by
  have carried : ∀ {g g' : Graph}, Alike g g' → 0 < g.nodes.size → 0 < g'.nodes.size := by
    intro g g' alike some
    obtain ⟨n, here⟩ := exists_node? some
    obtain ⟨v, here'⟩ := (alike.nodes n).1 ⟨0, here⟩
    exact Nat.zero_lt_of_lt (lt_of_node? here')
  exact ⟨carried alike, carried alike.symm⟩

/-! ### Without synthetic nodes -/

theorem Alike.mem_endsAt (alike : Alike g g') (wf : g.WellFormed) (wf' : g'.WellFormed)
    (known : ∃ c, g.node? c = some k) : m ∈ g.endsAt k ↔ m ∈ g'.endsAt k := by
  have carried : ∀ {g g' : Graph}, Alike g g' → g.WellFormed → g'.WellFormed →
      (∃ c, g.node? c = some k) → m ∈ g.endsAt k → m ∈ g'.endsAt k := by
    intro g g' alike wf wf' known ends
    obtain ⟨c, atC⟩ := known
    obtain ⟨c', atC'⟩ := (alike.nodes k).1 ⟨c, atC⟩
    obtain ⟨other, w, atW, chain⟩ := (Graph.mem_endsAt wf atC).1 ends
    obtain ⟨l, path⟩ := Leads.exists_iff.2 chain
    have step : ∀ u v, g.Chained u v → ∃ n m, g.node? u = some n ∧ g.node? v = some m ∧
        ∃ u' v', g'.node? u' = some n ∧ g'.node? v' = some m ∧ g'.Chained u' v' := by
      rintro u v ⟨synthetic, arc⟩
      obtain ⟨n, m, atU, atV, u', v', atU', atV', arc'⟩ := alike.arc arc
      rw [isSynthetic_eq atU] at synthetic
      exact ⟨n, m, atU, atV, u', v', atU', atV', (isSynthetic_eq atU').trans synthetic, arc'⟩
    obtain ⟨m', w', atW₁, atW', path'⟩ := Leads.carry wf' step path atC atC'
    rw [atW] at atW₁
    obtain rfl := Option.some.inj atW₁
    exact (Graph.mem_endsAt wf' atC').2 ⟨other, w', atW', Leads.exists_iff.1 ⟨l, path'⟩⟩
  exact ⟨carried alike wf wf' known, carried alike.symm wf' wf ((alike.nodes k).1 known)⟩

/-- **Graphs that say the same do so without their synthetic nodes.** -/
theorem Alike.withoutSynthetic (alike : Alike g g') (wf : g.WellFormed) (wf' : g'.WellFormed) :
    Alike g.withoutSynthetic g'.withoutSynthetic := by
  refine ⟨fun n => ?_, fun n m call => ?_, fun n => ?_⟩
  · rw [exists_node?_withoutSynthetic, exists_node?_withoutSynthetic, alike.nodes]
  · rw [mem_callsFrom_withoutSynthetic wf, mem_callsFrom_withoutSynthetic wf']
    refine and_congr_right fun _ => exists_congr fun k => ?_
    rw [← alike.calls]
    refine and_congr_right fun first => ?_
    obtain ⟨e, _, _, callee, _⟩ := mem_callsFrom.1 first
    exact alike.mem_endsAt wf wf' ⟨_, callee⟩
  · rw [exists_root_withoutSynthetic, exists_root_withoutSynthetic, alike.roots]

/-! ### Entry points -/

/-- A node is an entry point. -/
def Starts (g : Graph) (n : Node) : Prop :=
  ∃ v ∈ g.entryPoints.map (·.1), g.node? v = some n

/-- A node is an entry point by its name. -/
def StartsByName (g : Graph) (n : Node) : Prop :=
  (∃ v, g.node? v = some n) ∧ (entryKind? n).isSome = true

/-- A node is an entry point if nothing else is: nobody calls it. -/
def Uncalled (g : Graph) (n : Node) : Prop :=
  (∃ v, g.node? v = some n) ∧ ∀ k call, (n, call) ∉ g.callsFrom k

theorem mem_namedEntries {v : Nat} : v ∈ g.namedEntries.map (·.1) ↔
    ∃ n, g.node? v = some n ∧ (entryKind? n).isSome = true := by
  rw [List.mem_map]
  constructor
  · rintro ⟨⟨w, kind⟩, listed, rfl⟩
    obtain ⟨x, _, named⟩ := List.mem_filterMap.1 listed
    obtain ⟨kind', kinds, same⟩ := Option.map_eq_some_iff.1 named
    obtain ⟨n, here, found⟩ := Option.bind_eq_some_iff.1 kinds
    cases same
    exact ⟨n, here, Option.isSome_iff_exists.2 ⟨_, found⟩⟩
  · rintro ⟨n, here, named⟩
    obtain ⟨kind, found⟩ := Option.isSome_iff_exists.1 named
    refine ⟨(v, kind), List.mem_filterMap.2 ⟨v, List.mem_range.2 (lt_of_node? here), ?_⟩, rfl⟩
    rw [here, Option.bind_some, found]
    rfl

theorem mem_orphans (wf : g.WellFormed) {v : Nat} (here : g.node? v = some n) :
    v ∈ g.orphans.map (·.1) ↔ ∀ k call, (n, call) ∉ g.callsFrom k := by
  have uncalled : v ∈ g.orphans.map (·.1) ↔ g.incoming v = [] := by
    simp [orphans, inDegree, nodeNumbers, lt_of_node? here]
  rw [uncalled, List.eq_nil_iff_forall_not_mem]
  constructor
  · intro none k call called
    obtain ⟨e, inEdges, _, callee, _⟩ := mem_callsFrom.1 called
    obtain ⟨i, listed⟩ := Array.mem_iff_getElem?.1 inEdges
    exact none (e, i) (mem_incoming.2 ⟨listed, wf.node?_inj callee here rfl⟩)
  · rintro none ⟨e, i⟩ received
    obtain ⟨listed, rfl⟩ := mem_incoming.1 received
    have inEdges := Array.mem_of_getElem? listed
    obtain ⟨k, caller⟩ := exists_node? (wf.ends e inEdges).1
    exact none k e.call (mem_callsFrom.2 ⟨e, inEdges, caller, here, rfl⟩)

theorem exists_root_iff (wf : g.WellFormed) :
    (∃ k, ∃ r ∈ g.roots, g.node? r = some k) ↔ g.roots ≠ [] := by
  constructor
  · rintro ⟨_, r, root, _⟩
    exact List.ne_nil_of_mem root
  · intro some
    obtain ⟨r, root⟩ := List.exists_mem_of_ne_nil _ some
    obtain ⟨k, here⟩ := exists_node? (wf.roots r root)
    exact ⟨k, r, root, here⟩

theorem exists_startsByName_iff : (∃ k, g.StartsByName k) ↔ g.namedEntries ≠ [] := by
  constructor
  · rintro ⟨k, ⟨v, here⟩, named⟩ none
    have listed := mem_namedEntries.2 ⟨k, here, named⟩
    rw [none] at listed
    exact List.not_mem_nil listed
  · intro some
    obtain ⟨entry, listed⟩ := List.exists_mem_of_ne_nil _ some
    obtain ⟨k, here, named⟩ := mem_namedEntries.1 (List.mem_map_of_mem listed)
    exact ⟨k, ⟨_, here⟩, named⟩

/-- **The entry points of a graph, by their records**: the first of the three sorts that has any. -/
theorem starts_iff (wf : g.WellFormed) : g.Starts n ↔
    (∃ r ∈ g.roots, g.node? r = some n) ∨ (¬ ∃ k, ∃ r ∈ g.roots, g.node? r = some k) ∧
      (g.StartsByName n ∨ (¬ ∃ k, g.StartsByName k) ∧ g.Uncalled n) := by
  by_cases none : g.roots = []
  · have noRoot : ¬ ∃ r ∈ g.roots, g.node? r = some n := fun root => (exists_root_iff wf).1 ⟨n, root⟩ none
    rw [or_iff_right noRoot, and_iff_right fun some => (exists_root_iff wf).1 some none]
    by_cases unnamed : g.namedEntries = []
    · have points : g.entryPoints = g.orphans := by simp [entryPoints, none, unnamed]
      rw [or_iff_right fun here => exists_startsByName_iff.1 ⟨n, here⟩ unnamed,
        and_iff_right fun some => exists_startsByName_iff.1 some unnamed, Starts, points, Uncalled]
      constructor
      · rintro ⟨v, listed, here⟩
        exact ⟨⟨v, here⟩, (mem_orphans wf here).1 listed⟩
      · rintro ⟨⟨v, here⟩, uncalled⟩
        exact ⟨v, (mem_orphans wf here).2 uncalled, here⟩
    · have points : g.entryPoints = g.namedEntries := by simp [entryPoints, none, unnamed]
      rw [or_iff_left fun other => other.1 (exists_startsByName_iff.2 unnamed), Starts, points]
      simp only [mem_namedEntries, StartsByName]
      constructor
      · rintro ⟨v, ⟨m, there, found⟩, here⟩
        rw [here] at there
        cases there
        exact ⟨⟨v, here⟩, found⟩
      · rintro ⟨⟨v, here⟩, found⟩
        exact ⟨v, ⟨n, here, found⟩, here⟩
  · have points : g.entryPoints.map (·.1) = g.roots := by
      simp [entryPoints, none, Function.comp_def]
    rw [or_iff_left fun other => other.1 ((exists_root_iff wf).2 none), Starts, points]

theorem Alike.starts_iff (alike : Alike g g') (wf : g.WellFormed) (wf' : g'.WellFormed) :
    g.Starts n ↔ g'.Starts n := by
  have named : ∀ n, g.StartsByName n ↔ g'.StartsByName n := fun n =>
    and_congr_left fun _ => alike.nodes n
  have uncalled : g.Uncalled n ↔ g'.Uncalled n :=
    and_congr (alike.nodes n) (forall₂_congr fun k call => not_congr (alike.calls k n call))
  simp only [Graph.starts_iff wf, Graph.starts_iff wf', alike.roots, named, uncalled]

/-- **Nodes are equally far from the entry points** of graphs that say the same. -/
theorem Alike.hops_eq (alike : Alike g g') (wf : g.WellFormed) (wf' : g'.WellFormed) {v v' : Nat}
    (atV : g.node? v = some n) (atV' : g'.node? v' = some n) :
    hops g.Arc (g.entryPoints.map (·.1)) v = hops g'.Arc (g'.entryPoints.map (·.1)) v' := by
  have farther : ∀ {g g' : Graph} {v v' : Nat}, Alike g g' → g.WellFormed → g'.WellFormed →
      g.node? v = some n → g'.node? v' = some n →
      hops g'.Arc (g'.entryPoints.map (·.1)) v' ≤ hops g.Arc (g.entryPoints.map (·.1)) v := by
    intro g g' v v' alike wf wf' atV atV'
    refine hops_le_hops wf' (fun _ _ => alike.arc) (fun r root => ?_) atV atV'
    obtain ⟨m, atR⟩ := exists_node? (lt_of_mem_entryPoints wf.roots r root)
    exact ⟨m, atR, (alike.starts_iff wf wf').1 ⟨r, root, atR⟩⟩
  exact le_antisymm (farther alike.symm wf' wf atV' atV) (farther alike wf wf' atV atV')

end CallGraph.Graph
