import CallGraph.Graph
import Mathlib.Data.ENat.Lattice
import Mathlib.Logic.Relation

/-!
**Paths and distances.**

The theory that selections are measured against: paths along a relation between numbered nodes, each
entry of a node counted with a cost of its own, and the least count of a path from some roots.

* `Leads arc cost u k v` — some path from `u` to `v` counts `k`;
* `distance arc cost roots v` — the least such count from a root, `⊤` if no path leads to `v`;
* `hops` — the distance that counts every entry once (`leads_flip`: the same in both directions;
  `hops_anti`: no more with more arcs);
* `Graph.Arc` — the relation between the nodes of a graph that have an edge.
-/

namespace CallGraph

/-- **A path from `u`**, with what it counts and where it ends. Each entry of a node counts as much
as the node costs. -/
inductive Leads (arc : Nat → Nat → Prop) (cost : Nat → Nat) (u : Nat) : Nat → Nat → Prop
  | here : Leads arc cost u 0 u
  | hop {k v w : Nat} : Leads arc cost u k v → arc v w → Leads arc cost u (k + cost w) w

namespace Leads

variable {arc : Nat → Nat → Prop} {cost : Nat → Nat} {u v w j k : Nat}

theorem trans (first : Leads arc cost u j v) (second : Leads arc cost v k w) :
    Leads arc cost u (j + k) w := by
  induction second with
  | here => exact first
  | hop _ step hyp => exact Nat.add_assoc .. ▸ hop hyp step

theorem single (step : arc u v) : Leads arc cost u (cost v) v := by
  have path : Leads arc cost u (0 + cost v) v := hop here step
  rwa [Nat.zero_add] at path

/-- With more arcs there are more paths. -/
theorem mono {arc' : Nat → Nat → Prop} (more : ∀ u v, arc u v → arc' u v)
    (path : Leads arc cost u k v) : Leads arc' cost u k v := by
  induction path with
  | here => exact .here
  | hop _ step hyp => exact .hop hyp (more _ _ step)

/-- Paths lead where arcs lead on and on. -/
theorem exists_iff : (∃ k, Leads arc cost u k v) ↔ Relation.ReflTransGen arc u v := by
  constructor
  · rintro ⟨k, path⟩
    induction path with
    | here => exact .refl
    | hop _ step hyp => exact .tail hyp step
  · intro chain
    induction chain with
    | refl => exact ⟨0, .here⟩
    | tail _ step hyp =>
      obtain ⟨k, path⟩ := hyp
      exact ⟨_, .hop path step⟩

end Leads

/-- **The least count of a path from a root.** -/
noncomputable def distance (arc : Nat → Nat → Prop) (cost : Nat → Nat) (roots : List Nat)
    (v : Nat) : ℕ∞ :=
  ⨅ (k : ℕ) (_ : ∃ r ∈ roots, Leads arc cost r k v), (k : ℕ∞)

section

variable {arc : Nat → Nat → Prop} {cost : Nat → Nat} {roots : List Nat} {v : Nat}

theorem distance_lt_iff {a : ℕ∞} :
    distance arc cost roots v < a ↔
      ∃ k : ℕ, (∃ r ∈ roots, Leads arc cost r k v) ∧ (k : ℕ∞) < a := by
  unfold distance
  simp only [iInf_lt_iff, exists_prop]

theorem distance_le_iff {d : ℕ} :
    distance arc cost roots v ≤ d ↔ ∃ k ≤ d, ∃ r ∈ roots, Leads arc cost r k v := by
  rw [← ENat.lt_natCast_add_one_iff, distance_lt_iff]
  refine exists_congr fun k => ?_
  rw [and_comm, ENat.lt_natCast_add_one_iff, Nat.cast_le]

theorem distance_le {r k : ℕ} (root : r ∈ roots) (path : Leads arc cost r k v) :
    distance arc cost roots v ≤ k :=
  distance_le_iff.2 ⟨k, Nat.le_refl k, r, root, path⟩

/-- A distance is the count of a shortest path. -/
theorem distance_eq_iff {d : ℕ} :
    distance arc cost roots v = d ↔
      (∃ r ∈ roots, Leads arc cost r d v) ∧ ∀ r ∈ roots, ∀ k, Leads arc cost r k v → d ≤ k := by
  constructor
  · intro same
    obtain ⟨k, below, r, root, path⟩ := distance_le_iff.1 (le_of_eq same)
    have least : ∀ r ∈ roots, ∀ k, Leads arc cost r k v → d ≤ k := by
      intro r root k path
      have := same ▸ distance_le root path
      exact_mod_cast this
    have exact : k = d := Nat.le_antisymm below (least r root k path)
    exact ⟨⟨r, root, exact ▸ path⟩, least⟩
  · rintro ⟨⟨r, root, path⟩, least⟩
    refine le_antisymm (distance_le root path) ?_
    refine le_iInf fun k => le_iInf fun found => ?_
    obtain ⟨r, root, path⟩ := found
    exact_mod_cast least r root k path

/-- Two distances are equal if the same counts lead to both nodes. -/
theorem distance_congr {arc' : Nat → Nat → Prop} {cost' : Nat → Nat} {roots' : List Nat} {v' : Nat}
    (same : ∀ k, (∃ r ∈ roots, Leads arc cost r k v) ↔ ∃ r ∈ roots', Leads arc' cost' r k v') :
    distance arc cost roots v = distance arc' cost' roots' v' := by
  unfold distance
  simp only [same]

end

/-- **Hops from a root**: every entry of a node counts once. -/
noncomputable def hops (arc : Nat → Nat → Prop) (roots : List Nat) (v : Nat) : ℕ∞ :=
  distance arc (fun _ => 1) roots v

/-- Arcs may be gone against their direction. -/
theorem leads_flip {arc : Nat → Nat → Prop} {u v k : Nat} :
    Leads (fun a b => arc b a) (fun _ => 1) v k u ↔ Leads arc (fun _ => 1) u k v := by
  have turned : ∀ {arc : Nat → Nat → Prop} {u v k : Nat}, Leads arc (fun _ => 1) u k v →
      Leads (fun a b => arc b a) (fun _ => 1) v k u := by
    intro arc u v k path
    induction path with
    | here => exact .here
    | @hop k v w _ step hyp =>
      have back : Leads (fun a b => arc b a) (fun _ => 1) w 1 v := .single step
      exact Nat.add_comm k 1 ▸ back.trans hyp
  exact ⟨turned, turned⟩

/-- A node is as far from a root against the arcs as the root is from it along them. -/
theorem hops_flip {arc : Nat → Nat → Prop} {u v : Nat} :
    hops (fun a b => arc b a) [v] u = hops arc [u] v := by
  refine distance_congr fun k => ?_
  simp only [List.mem_singleton, exists_eq_left]
  exact leads_flip

/-- With more arcs nothing is farther away. -/
theorem hops_anti {arc arc' : Nat → Nat → Prop} (more : ∀ u v, arc u v → arc' u v)
    (roots : List Nat) (v : Nat) : hops arc' roots v ≤ hops arc roots v := by
  refine le_iInf fun k => le_iInf fun found => ?_
  obtain ⟨r, root, path⟩ := found
  exact distance_le root (path.mono more)

/-! ### The arcs of a graph -/

namespace Graph

/-- Some edge leads from one node to another. -/
def Arc (g : Graph) (u v : Nat) : Prop :=
  ∃ e ∈ g.edges, e.caller = u ∧ e.callee = v ∧ u < g.nodes.size ∧ v < g.nodes.size

theorem mem_calleesOf {g : Graph} {u v : Nat} :
    v ∈ g.calleesOf u ↔ ∃ e ∈ g.edges, e.caller = u ∧ e.callee = v := by
  unfold calleesOf
  rw [List.mem_map]
  constructor
  · rintro ⟨⟨e, i⟩, listed, callee⟩
    obtain ⟨here, caller⟩ := mem_outgoing.1 listed
    exact ⟨e, Array.mem_of_getElem? here, caller, callee⟩
  · rintro ⟨e, inEdges, caller, callee⟩
    obtain ⟨i, here⟩ := Array.mem_iff_getElem?.1 inEdges
    exact ⟨(e, i), mem_outgoing.2 ⟨here, caller⟩, callee⟩

/-- The arcs of a graph are the edges to the callees of its nodes. -/
theorem arc_iff {g : Graph} {u v : Nat} :
    g.Arc u v ↔ u < g.nodes.size ∧ v < g.nodes.size ∧ v ∈ g.calleesOf u := by
  rw [mem_calleesOf]
  constructor
  · rintro ⟨e, here, caller, callee, left, right⟩
    exact ⟨left, right, e, here, caller, callee⟩
  · rintro ⟨left, right, e, here, caller, callee⟩
    exact ⟨e, here, caller, callee, left, right⟩

end Graph

end CallGraph
