import CallGraph.Graph
import Mathlib.Data.List.Nodup

/-!
**Graphs that grow keep their nodes apart.**

The theory of how graphs are built. Nodes are only ever added behind those that there are, and only
with ids that are new, so an id names one node and numbers keep their meaning.

* `ids` — the ids of a graph, `find?_eq_some_iff` — the node that has one;
* `Ensured` — what a graph is after a node has been asked for (`ensured_ensure`);
* `mem_roots_foldl_declareRoot` — the roots after some have been declared.
-/

namespace CallGraph

/-- In a list without repetitions an element is found where it is. -/
theorem findIdx?_beq_eq_some_iff {α : Type} [BEq α] [LawfulBEq α] {l : List α}
    (distinct : l.Nodup) {a : α} {i : Nat} : l.findIdx? (· == a) = some i ↔ l[i]? = some a := by
  rw [List.findIdx?_eq_some_iff_getElem, List.getElem?_eq_some_iff]
  constructor
  · rintro ⟨inRange, here, _⟩
    exact ⟨inRange, eq_of_beq here⟩
  · rintro ⟨inRange, here⟩
    refine ⟨inRange, beq_iff_eq.2 here, fun j before same => ?_⟩
    have same : l[j] = l[i] := (eq_of_beq same).trans here.symm
    exact Nat.ne_of_lt before (distinct.getElem_inj_iff.1 same)

namespace Graph

/-- The ids of the nodes, in order. -/
def ids (g : Graph) : List String :=
  g.nodes.toList.map (·.id)

variable {g g' : Graph}

theorem getElem?_ids (v : Nat) : g.ids[v]? = (g.node? v).map (·.id) := by
  unfold ids node?
  rw [List.getElem?_map, Array.getElem?_toList]

/-- A number of a node is the position of an id. -/
theorem getElem?_ids_eq_some_iff {v : Nat} {id : String} :
    g.ids[v]? = some id ↔ v < g.nodes.size ∧ g.idOf v = id := by
  rw [getElem?_ids, idOf]
  by_cases inRange : v < g.nodes.size
  · simp [node?, inRange]
  · simp [node?, inRange]

theorem mem_ids {id : String} : id ∈ g.ids ↔ ∃ v < g.nodes.size, g.idOf v = id := by
  rw [List.mem_iff_getElem?]
  exact exists_congr fun v => getElem?_ids_eq_some_iff

/-- A node is looked up by the position of its id. -/
theorem find?_eq_findIdx? (g : Graph) (id : String) : g.find? id = g.ids.findIdx? (· == id) := by
  obtain ⟨⟨nodes⟩, edges, roots⟩ := g
  show nodes.toArray.findIdx? _ = (nodes.map _).findIdx? _
  rw [List.findIdx?_toArray, List.findIdx?_map]
  rfl

theorem find?_eq_none_iff {id : String} : g.find? id = none ↔ id ∉ g.ids := by
  rw [find?_eq_findIdx?, List.findIdx?_eq_none_iff]
  constructor
  · intro none here
    have other := none id here
    rw [beq_self_eq_true] at other
    cases other
  · intro absent other here
    exact Bool.eq_false_iff.2 fun same => absent (eq_of_beq same ▸ here)

/-- **An id names the node that has it**, if no two nodes have the same. -/
theorem find?_eq_some_iff (distinct : g.ids.Nodup) {id : String} {v : Nat} :
    g.find? id = some v ↔ v < g.nodes.size ∧ g.idOf v = id := by
  rw [find?_eq_findIdx?, findIdx?_beq_eq_some_iff distinct, getElem?_ids_eq_some_iff]

theorem idOf_inj (distinct : g.ids.Nodup) {v w : Nat} (left : v < g.nodes.size)
    (right : w < g.nodes.size) (same : g.idOf v = g.idOf w) : v = w := by
  have found := (find?_eq_some_iff distinct).2 ⟨left, same⟩
  rw [(find?_eq_some_iff distinct).2 ⟨right, rfl⟩] at found
  exact (Option.some.inj found).symm

/-! ### Nodes behind those that there are -/

section

variable {more : List Node}

theorem size_of_append (nodes : g'.nodes.toList = g.nodes.toList ++ more) :
    g'.nodes.size = g.nodes.size + more.length := by
  rw [← Array.length_toList, nodes, List.length_append, Array.length_toList]

/-- A number keeps its meaning. -/
theorem node?_of_append (nodes : g'.nodes.toList = g.nodes.toList ++ more) {v : Nat}
    (inRange : v < g.nodes.size) : g'.node? v = g.node? v := by
  unfold node?
  rw [← Array.getElem?_toList, nodes, List.getElem?_append_left (by simpa using inRange),
    Array.getElem?_toList]

theorem idOf_of_append (nodes : g'.nodes.toList = g.nodes.toList ++ more) {v : Nat}
    (inRange : v < g.nodes.size) : g'.idOf v = g.idOf v := by
  rw [idOf, idOf, node?_of_append nodes inRange]

theorem ids_of_append (nodes : g'.nodes.toList = g.nodes.toList ++ more) :
    g'.ids = g.ids ++ more.map (·.id) := by
  rw [ids, nodes, List.map_append, ids]

end

/-! ### Asking for a node -/

/-- What a graph is after a node has been asked for, which has got a number: nothing but that node
is added, and only if its id is new. -/
structure Ensured (g : Graph) (n : Node) (g' : Graph) (v : Nat) : Prop where
  nodes : ∃ more, g'.nodes.toList = g.nodes.toList ++ more ∧ ∀ m ∈ more, m = n ∧ n.id ∉ g.ids
  edges : g'.edges = g.edges
  roots : g'.roots = g.roots
  inRange : v < g'.nodes.size
  id : g'.idOf v = n.id
  only : ∀ w, g.nodes.size ≤ w → w < g'.nodes.size → w = v
  distinct : g.ids.Nodup → g'.ids.Nodup

theorem ensured_ensure (g : Graph) (n : Node) : Ensured g n (g.ensure n).1 (g.ensure n).2 := by
  unfold ensure
  cases known : g.find? n.id with
  | some v =>
    obtain ⟨inRange, here, _⟩ := Array.findIdx?_eq_some_iff_getElem.1 known
    rw [addNode_of_known known]
    refine ⟨⟨[], (List.append_nil _).symm, fun m here => absurd here List.not_mem_nil⟩, rfl, rfl,
      inRange, ?_, fun w beyond within => absurd within (Nat.not_lt.2 beyond), fun old => old⟩
    rw [idOf, node?, Array.getElem?_eq_getElem inRange]
    exact eq_of_beq here
  | none =>
    have new := find?_eq_none_iff.1 known
    rw [addNode_of_new known]
    have nodes : (g.nodes.push n).toList = g.nodes.toList ++ [n] := Array.toList_push
    refine ⟨⟨[n], nodes, fun m here => ⟨List.mem_singleton.1 here, new⟩⟩, rfl, rfl, ?_, ?_,
      fun w beyond within => ?_, fun old => ?_⟩
    · show g.nodes.size < (g.nodes.push n).size
      rw [Array.size_push]
      exact Nat.lt_succ_self _
    · show ((g.nodes.push n)[g.nodes.size]?.map (·.id)).getD "" = n.id
      rw [Array.getElem?_push_size]
      rfl
    · have within : w < (g.nodes.push n).size := within
      rw [Array.size_push] at within
      exact Nat.le_antisymm (Nat.le_of_lt_succ within) beyond
    · show ((g.nodes.push n).toList.map (·.id)).Nodup
      rw [nodes, List.map_append]
      exact List.Nodup.append old (List.nodup_singleton _) (List.disjoint_singleton.2 new)

/-! ### Declaring roots -/

/-- Nothing but the roots changes. -/
theorem foldl_declareRoot (vs : List Nat) (g : Graph) :
    ∃ roots, vs.foldl declareRoot g = { g with roots := roots } := by
  induction vs generalizing g with
  | nil => exact ⟨g.roots, rfl⟩
  | cons v rest hyp =>
    obtain ⟨first, one⟩ : ∃ roots, g.declareRoot v = { g with roots := roots } := by
      unfold declareRoot
      split
      · exact ⟨g.roots, rfl⟩
      · exact ⟨g.roots ++ [v], rfl⟩
    obtain ⟨roots, later⟩ := hyp (g.declareRoot v)
    refine ⟨roots, later.trans ?_⟩
    rw [one]

theorem mem_roots_declareRoot {v w : Nat} : w ∈ (g.declareRoot v).roots ↔ w ∈ g.roots ∨ w = v := by
  unfold declareRoot
  split
  · rename_i known
    exact (or_iff_left_of_imp fun same => same ▸ known).symm
  · show w ∈ g.roots ++ [v] ↔ _
    rw [List.mem_append, List.mem_singleton]

/-- The declared roots are the old and the new ones. -/
theorem mem_roots_foldl_declareRoot {vs : List Nat} {w : Nat} :
    w ∈ (vs.foldl declareRoot g).roots ↔ w ∈ g.roots ∨ w ∈ vs := by
  induction vs generalizing g with
  | nil => exact (or_iff_left List.not_mem_nil).symm
  | cons v rest hyp =>
    rw [List.foldl_cons, hyp, mem_roots_declareRoot, List.mem_cons, or_assoc]

/-- No root is declared twice. -/
theorem nodup_roots_foldl_declareRoot {vs : List Nat} (distinct : g.roots.Nodup) :
    (vs.foldl declareRoot g).roots.Nodup := by
  induction vs generalizing g with
  | nil => exact distinct
  | cons v rest hyp =>
    refine hyp ?_
    unfold declareRoot
    split
    · exact distinct
    · rename_i new
      exact List.Nodup.append distinct (List.nodup_singleton v) (List.disjoint_singleton.2 new)

end Graph

end CallGraph
