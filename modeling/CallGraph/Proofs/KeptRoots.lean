import CallGraph.Proofs.Stripped

/-!
**Which roots are left without synthetic nodes.**

A root may be synthetic itself: a wrapper or an initializer that a builder put in. It is left out
with the other synthetic nodes, and nothing takes its place, so that what only such roots lead to is
reached from no root any more.

* `keptRoots` — the declared roots that are left, `mem_roots_withoutSynthetic` — their numbers;
* `exists_landing` — the first node on a way that is not synthetic;
* `reaches_withoutSynthetic_iff`, `hops_roots_withoutSynthetic` — what the roots of the result reach,
  and how far it is;
* `declared_roots_reach` — all of this, when nothing is lost, and from where depths are measured;
* `synthetic_root_is_lost` — a program of which everything is lost.
-/

namespace CallGraph.Graph

variable {g : Graph} {r v w : Nat}

/-- Some root leads to a node. -/
def Reaches (g : Graph) (roots : List Nat) (v : Nat) : Prop :=
  ∃ r ∈ roots, Relation.ReflTransGen g.Arc r v

/-- The declared roots that are not left out. -/
def keptRoots (g : Graph) : List Nat :=
  g.roots.filter fun r => decide (r ∈ g.kept)

theorem mem_keptRoots : r ∈ g.keptRoots ↔ r ∈ g.roots ∧ r ∈ g.kept := by
  rw [keptRoots, List.mem_filter, decide_eq_true_iff]

/-- **The roots of the result are the declared roots that are kept**, under their new numbers. -/
theorem mem_roots_withoutSynthetic {a : Nat} :
    a ∈ g.withoutSynthetic.roots ↔ ∃ r ∈ g.keptRoots, g.kept[a]? = some r := by
  show a ∈ g.roots.filterMap g.renumber? ↔ _
  simp only [List.mem_filterMap, renumber?_eq_some_iff, mem_keptRoots]
  refine exists_congr fun r => ?_
  constructor
  · rintro ⟨declared, atA⟩
    exact ⟨⟨declared, List.mem_of_getElem? atA⟩, atA⟩
  · rintro ⟨⟨declared, _⟩, atA⟩
    exact ⟨declared, atA⟩

theorem roots_withoutSynthetic_eq_nil_iff : g.withoutSynthetic.roots = [] ↔ g.keptRoots = [] := by
  simp only [List.eq_nil_iff_forall_not_mem, mem_roots_withoutSynthetic, not_exists, not_and]
  constructor
  · intro none r isRoot
    obtain ⟨a, atA⟩ := List.mem_iff_getElem?.1 (mem_keptRoots.1 isRoot).2
    exact none a r isRoot atA
  · intro none a r isRoot
    exact absurd isRoot (none r)

/-! ### What roots reach -/

section

variable {b : Nat} (atB : g.kept[b]? = some v)

include atB

/-- Paths from the roots of the result are those from the roots that are kept. -/
theorem leads_roots_withoutSynthetic_iff (k : Nat) :
    (∃ a ∈ g.withoutSynthetic.roots, Leads g.withoutSynthetic.Arc (fun _ => 1) a k b) ↔
      ∃ r ∈ g.keptRoots, Leads g.Arc g.entry r k v := by
  constructor
  · rintro ⟨a, isRoot, path⟩
    obtain ⟨r, declared, atA⟩ := mem_roots_withoutSynthetic.1 isRoot
    obtain ⟨v', atB', found⟩ := leads_of_leads_kept atA path
    rw [← Option.some.inj (atB.symm.trans atB')] at found
    exact ⟨r, declared, found⟩
  · rintro ⟨r, declared, path⟩
    obtain ⟨a, atA⟩ := List.mem_iff_getElem?.1 (mem_keptRoots.1 declared).2
    exact ⟨a, mem_roots_withoutSynthetic.2 ⟨r, declared, atA⟩,
      (leads_withoutSynthetic_iff atA atB k).2 path⟩

/-- **Depths in the result are those from the roots that are kept.** -/
theorem hops_roots_withoutSynthetic :
    hops g.withoutSynthetic.Arc g.withoutSynthetic.roots b = distance g.Arc g.entry g.keptRoots v :=
  distance_congr (leads_roots_withoutSynthetic_iff atB)

/-- **The roots of the result reach what the roots that are kept reach.** -/
theorem reaches_withoutSynthetic_iff :
    g.withoutSynthetic.Reaches g.withoutSynthetic.roots b ↔ g.Reaches g.keptRoots v := by
  unfold Reaches
  simp only [← @Leads.exists_iff g.withoutSynthetic.Arc fun _ => 1, ← @Leads.exists_iff g.Arc g.entry]
  constructor
  · rintro ⟨a, isRoot, k, path⟩
    obtain ⟨r, declared, path⟩ := (leads_roots_withoutSynthetic_iff atB k).1 ⟨a, isRoot, path⟩
    exact ⟨r, declared, k, path⟩
  · rintro ⟨r, declared, k, path⟩
    obtain ⟨a, isRoot, path⟩ := (leads_roots_withoutSynthetic_iff atB k).2 ⟨r, declared, path⟩
    exact ⟨a, isRoot, k, path⟩

end

/-! ### What is lost -/

/-- **A way to a node that is not synthetic** goes through the first one at which it lands. -/
theorem exists_landing (way : Relation.ReflTransGen g.Arc r v) (other : v ∈ g.kept) :
    ∃ w ∈ g.kept, g.Lands r w ∧ Relation.ReflTransGen g.Arc w v := by
  induction way using Relation.ReflTransGen.head_induction_on with
  | refl => exact ⟨v, other, Or.inl rfl, .refl⟩
  | @head r c step rest hyp =>
    by_cases synthetic : g.isSynthetic r = true
    · obtain ⟨w, kept, lands, onward⟩ := hyp
      exact ⟨w, kept, lands_iff.2 (.head ⟨synthetic, step⟩ (lands_iff.1 lands)), onward⟩
    · have kept : r ∈ g.kept := mem_kept.2 ⟨(arc_iff.1 step).1, Bool.eq_false_iff.2 synthetic⟩
      exact ⟨r, kept, Or.inl rfl, .head step rest⟩

/-- Chains are ways through the graph. -/
theorem reflTransGen_of_lands (lands : g.Lands r v) : Relation.ReflTransGen g.Arc r v :=
  (lands_iff.1 lands).lift id fun _ _ step => step.2

/-- A root that leads to a node and is not kept is synthetic. -/
theorem isSynthetic_of_not_kept (way : Relation.ReflTransGen g.Arc r v) (other : v ∈ g.kept)
    (left : r ∉ g.kept) : g.isSynthetic r = true := by
  rcases Relation.ReflTransGen.cases_head way with same | ⟨_, step, _⟩
  · exact absurd (same ▸ other) left
  · by_contra real
    exact left (mem_kept.2 ⟨(arc_iff.1 step).1, Bool.eq_false_iff.2 real⟩)

/-- **Nothing is lost exactly if a root that is kept leads wherever a call to a synthetic root would
end up.** -/
theorem kept_roots_reach_iff :
    (∀ v ∈ g.kept, g.Reaches g.roots v → g.Reaches g.keptRoots v) ↔
      ∀ r ∈ g.roots, g.isSynthetic r = true → ∀ v ∈ g.kept, g.Lands r v →
        g.Reaches g.keptRoots v := by
  constructor
  · intro all r declared _ v kept lands
    exact all v kept ⟨r, declared, reflTransGen_of_lands lands⟩
  · rintro landed v kept ⟨r, declared, way⟩
    by_cases stays : r ∈ g.kept
    · exact ⟨r, mem_keptRoots.2 ⟨declared, stays⟩, way⟩
    · obtain ⟨w, atW, lands, onward⟩ := exists_landing way kept
      have synthetic := isSynthetic_of_not_kept way kept stays
      obtain ⟨r', stays', way'⟩ := landed r declared synthetic w atW lands
      exact ⟨r', stays', way'.trans onward⟩

/-! ### Where depths are measured from -/

/-- The entry points of a graph, said by its roots. -/
theorem entryPoints_eq (g : Graph) : g.entryPoints =
    if g.roots ≠ [] then g.roots.map fun v => (v, .declared)
    else if g.namedEntries ≠ [] then g.namedEntries else g.orphans := by
  simp only [entryPoints, Bool.not_eq_true', List.isEmpty_eq_false_iff]

/-- **What is left of the declared roots.** Without its synthetic nodes a graph has the declared roots
that are not synthetic, and no others; they reach what they reached, and every node is as far from
them as the nodes on the way that are not synthetic are many. So nothing that a declared root
reaches is lost exactly if one of them leads wherever a call to a synthetic root would end up. The
entry points are these roots; if there are none, they are looked for by name and by what nobody
calls, whatever was declared. -/
theorem declared_roots_reach (g : Graph) :
    let s := g.withoutSynthetic
    (∀ b v, g.kept[b]? = some v →
      (s.Reaches s.roots b ↔ g.Reaches g.keptRoots v) ∧
      hops s.Arc s.roots b =
        distance g.Arc (fun u => if g.isSynthetic u then 0 else 1) g.keptRoots v) ∧
    ((∀ b v, g.kept[b]? = some v → g.Reaches g.roots v → s.Reaches s.roots b) ↔
      ∀ r ∈ g.roots, g.isSynthetic r = true → ∀ v ∈ g.kept, g.Lands r v →
        g.Reaches g.keptRoots v) ∧
    s.entryPoints =
      if g.keptRoots ≠ [] then s.roots.map fun a => (a, .declared)
      else if s.namedEntries ≠ [] then s.namedEntries else s.orphans := by
  intro s
  refine ⟨fun b v atB => ⟨reaches_withoutSynthetic_iff atB, hops_roots_withoutSynthetic atB⟩, ?_, ?_⟩
  · rw [← kept_roots_reach_iff]
    constructor
    · intro all v kept reached
      obtain ⟨b, atB⟩ := List.mem_iff_getElem?.1 kept
      exact (reaches_withoutSynthetic_iff atB).1 (all b v atB reached)
    · intro all b v atB reached
      exact (reaches_withoutSynthetic_iff atB).2 (all v (List.mem_of_getElem? atB) reached)
  · simp only [entryPoints_eq, ne_eq, s, roots_withoutSynthetic_eq_nil_iff]

/-- A program that an initializer starts, which no source contains, and that goes on by calling
itself. -/
def bootstrapped : Graph where
  nodes := #[{ id := "app::init", name := "init", modulePath := some "app", synthetic := true },
    { id := "app::run", name := "run", modulePath := some "app" }]
  edges := #[⟨0, 1, {}⟩, ⟨1, 1, {}⟩]
  roots := [0]

/-- A request for what is one call away from the entry points. -/
def nearby : Request where
  moduleArgs := ["app"]
  group := []
  excludeUnexported := false
  maxDepth := some 1

/-- **What only a synthetic root reaches is lost.** The declared root leads to the second node. In the
result that node has no root before it, nor any entry point, so that a query with a bound shows
nothing of the program, and one without a bound shows its call. -/
theorem synthetic_root_is_lost :
    bootstrapped.WellFormed ∧ bootstrapped.kept = [1] ∧
    bootstrapped.Reaches bootstrapped.roots 1 ∧
    ¬ bootstrapped.withoutSynthetic.Reaches bootstrapped.withoutSynthetic.roots 0 ∧
    bootstrapped.withoutSynthetic.entryPoints = [] ∧
    (Query.run (fun _ => pure bootstrapped) nearby .none).run.value.map (·.body) =
      .ok "flowchart LR\n" ∧
    (Query.run (fun _ => pure bootstrapped) { nearby with maxDepth := some 0 } .none).run.value.map
      (·.body) = .ok "flowchart LR\nN1[\"run<br/>?:0\"]\nN1 --> N1\n" := by
  have arc : bootstrapped.Arc 0 1 := ⟨⟨0, 1, {}⟩, by decide +kernel, rfl, rfl, by decide, by decide⟩
  have none : bootstrapped.withoutSynthetic.roots = [] := by decide +kernel
  refine ⟨by decide +kernel, by decide +kernel, ⟨0, List.mem_singleton_self 0, .single arc⟩, ?_,
    by decide +kernel, by decide +kernel, by decide +kernel⟩
  rintro ⟨r, isRoot, _⟩
  rw [none] at isRoot
  cases isRoot

end CallGraph.Graph
