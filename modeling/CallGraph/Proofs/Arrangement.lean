import CallGraph.Diagram.Layout
import CallGraph.Proofs.Growth
import Mathlib.Data.List.Sort
import Mathlib.Data.String.Basic

/-!
**Nodes in the order and the groups of a drawing.**

The theory of `groupBy` and of `layout`. Sorting makes one increasing list of the same nodes, however
they come in; grouping deals it out without losing a node, and each group is in order again.

* `increasing_mergeSort`, `Increasing.eq_of_mem_iff` — a sorted list is known by its members;
* `grouped_groupBy` — what holds of groups, `groupBy_map` — they hang on the keys alone;
* `Part` — what a drawing declares, numbered; `Arranged` — the order and the groups of the parts;
* `arrange` — the parts of a list of nodes, `arranged_arrange`.
-/

namespace CallGraph

/-! ### Sorted lists -/

section

variable {α : Type} {cmp : α → α → Ordering} [Std.TransCmp cmp] {l l' : List α}

/-- A list in strictly increasing order. -/
def Increasing (cmp : α → α → Ordering) (l : List α) : Prop :=
  l.Pairwise fun a b => cmp a b = .lt

theorem isLE_total (a b : α) : ((cmp a b).isLE || (cmp b a).isLE) = true := by
  cases order : cmp a b with
  | lt | eq => rfl
  | gt =>
    rw [Std.OrientedCmp.gt_iff_lt.1 order]
    rfl

theorem sorted_mergeSort (l : List α) :
    (l.mergeSort fun a b => (cmp a b).isLE).Pairwise fun a b => (cmp a b).isLE = true :=
  List.pairwise_mergeSort (fun _ _ _ => Std.TransCmp.isLE_trans) isLE_total l

/-- Sorting things that are all different makes them increase. -/
theorem increasing_mergeSort (apart : l.Pairwise fun a b => cmp a b ≠ .eq) :
    Increasing cmp (l.mergeSort fun a b => (cmp a b).isLE) := by
  have sorted : (l.mergeSort fun a b => (cmp a b).isLE).Pairwise fun a b => (cmp a b).isLE = true :=
    sorted_mergeSort l
  have differ := apart.perm (List.mergeSort_perm l fun a b => (cmp a b).isLE).symm
    fun {a b} other same => other (Std.OrientedCmp.eq_symm same)
  refine (sorted.and differ).imp fun {a b} both => ?_
  cases order : cmp a b with
  | lt => rfl
  | eq => exact absurd order both.2
  | gt =>
    rw [order] at both
    exact absurd both.1 Bool.false_ne_true

theorem lt_irrefl (a : α) : cmp a a ≠ .lt := by
  have same : cmp a a = .eq := Std.ReflCmp.compare_self
  rw [same]
  exact Ordering.noConfusion

/-- **An increasing list is known by its members.** -/
theorem Increasing.eq_of_mem_iff (left : Increasing cmp l) (right : Increasing cmp l')
    (same : ∀ a, a ∈ l ↔ a ∈ l') : l = l' := by
  have irrefl : Std.Irrefl fun a b : α => cmp a b = .lt := ⟨lt_irrefl⟩
  have antisymm : Std.Antisymm fun a b : α => cmp a b = .lt := by
    refine ⟨fun a b lt gt => ?_⟩
    rw [Std.OrientedCmp.gt_of_lt lt] at gt
    cases gt
  exact List.Pairwise.eq_of_mem_iff left right same

theorem Increasing.nodup (increasing : Increasing cmp l) : l.Nodup := by
  apply List.Pairwise.imp _ increasing
  intro a b lt same
  exact lt_irrefl b (same ▸ lt)

end

namespace Diagram

/-! ### The order of nodes -/

theorem optionOrder_eq : optionOrder = fun a b : Option String => compare a b := by
  funext a b
  cases a <;> cases b <;> rfl

/-- Nodes are ordered by module path, receiver, name and id; a missing text comes first. -/
theorem nodeOrder_eq : nodeOrder = compareLex (compareOn Node.modulePath)
    (compareLex (compareOn Node.receiver) (compareLex (compareOn Node.name) (compareOn Node.id))) := by
  funext a b
  rw [nodeOrder, optionOrder_eq]
  rfl

instance : Std.TransCmp nodeOrder := by
  rw [nodeOrder_eq]
  infer_instance

theorem id_eq_of_nodeOrder {a b : Node} (same : nodeOrder a b = .eq) : a.id = b.id := by
  simp only [nodeOrder, Ordering.then_eq_eq] at same
  exact Std.LawfulEqOrd.eq_of_compare same.2.2.2

/-! ### Groups -/

section

variable {α β : Type} {key : α → String} {k : String} {a : α} {members : List α}
  {groups : List (String × List α)}

/-- **What holds of groups**: their keys increase, none is empty, each has members of its key in the
order they had, and every member is in one of them. -/
structure Grouped (key : α → String) (members : List α) (groups : List (String × List α)) :
    Prop where
  increasing : (groups.map (·.1)).Pairwise (· < ·)
  keyed : ∀ g ∈ groups, g.2 ≠ [] ∧ g.2.Sublist members ∧ ∀ a ∈ g.2, key a = g.1
  all : (groups.flatMap (·.2)).Perm members

theorem mem_addToGroup {g : String × List α} (here : g ∈ addToGroup k a groups) :
    g ∈ groups ∨ g = (k, [a]) ∨ ∃ ms, (k, ms) ∈ groups ∧ g = (k, ms ++ [a]) := by
  induction groups with
  | nil => exact Or.inr (Or.inl (List.mem_singleton.1 here))
  | cons first rest hyp =>
    obtain ⟨other, ms⟩ := first
    rw [addToGroup] at here
    split at here
    · rename_i same
      obtain rfl : k = other := Std.LawfulEqOrd.eq_of_compare same
      rcases List.mem_cons.1 here with changed | inRest
      · exact Or.inr (Or.inr ⟨ms, List.mem_cons_self, changed⟩)
      · exact Or.inl (List.mem_cons_of_mem _ inRest)
    · rcases List.mem_cons.1 here with new | old
      · exact Or.inr (Or.inl new)
      · exact Or.inl old
    · rcases List.mem_cons.1 here with same | later
      · exact Or.inl (same ▸ List.mem_cons_self)
      · rcases hyp later with inRest | new | ⟨ms, known, changed⟩
        · exact Or.inl (List.mem_cons_of_mem _ inRest)
        · exact Or.inr (Or.inl new)
        · exact Or.inr (Or.inr ⟨ms, List.mem_cons_of_mem _ known, changed⟩)

theorem key_addToGroup {g : String × List α} (here : g ∈ addToGroup k a groups) :
    g.1 = k ∨ g.1 ∈ groups.map (·.1) := by
  rcases mem_addToGroup here with old | rfl | ⟨ms, _, rfl⟩
  · exact Or.inr (List.mem_map_of_mem old)
  · exact Or.inl rfl
  · exact Or.inl rfl

/-- Keys stay in order. -/
theorem increasing_addToGroup (increasing : (groups.map (·.1)).Pairwise (· < ·)) :
    ((addToGroup k a groups).map (·.1)).Pairwise (· < ·) := by
  induction groups with
  | nil => exact List.pairwise_singleton _ _
  | cons first rest hyp =>
    obtain ⟨other, ms⟩ := first
    obtain ⟨before, later⟩ := List.pairwise_cons.1 increasing
    rw [addToGroup]
    split
    · exact increasing
    · rename_i smaller
      have smaller : k < other := compare_lt_iff_lt.1 smaller
      refine List.pairwise_cons.2 ⟨fun x here => ?_, increasing⟩
      rcases List.mem_cons.1 here with rfl | inRest
      · exact smaller
      · exact smaller.trans (before x inRest)
    · rename_i larger
      have larger : other < k := compare_gt_iff_gt.1 larger
      refine List.pairwise_cons.2 ⟨fun x here => ?_, hyp later⟩
      obtain ⟨g, inGroups, rfl⟩ := List.mem_map.1 here
      rcases key_addToGroup inGroups with same | old
      · exact same ▸ larger
      · exact before _ old

/-- Nothing but the new member is added. -/
theorem perm_addToGroup :
    ((addToGroup k a groups).flatMap (·.2)).Perm (groups.flatMap (·.2) ++ [a]) := by
  induction groups with
  | nil => exact .refl _
  | cons first rest hyp =>
    obtain ⟨other, ms⟩ := first
    rw [addToGroup]
    split
    · simp only [List.flatMap_cons, List.append_assoc]
      exact List.perm_append_comm.append_left ms
    · rw [List.flatMap_cons]
      exact List.perm_append_comm
    · simp only [List.flatMap_cons, List.append_assoc]
      exact hyp.append_left ms

/-- **One member more.** -/
theorem Grouped.add (known : Grouped key members groups) :
    Grouped key (members ++ [a]) (addToGroup (key a) a groups) := by
  refine ⟨increasing_addToGroup known.increasing, fun g here => ?_,
    perm_addToGroup.trans (known.all.append_right [a])⟩
  rcases mem_addToGroup here with old | rfl | ⟨ms, old, rfl⟩
  · obtain ⟨some, sub, same⟩ := known.keyed g old
    exact ⟨some, sub.trans (List.sublist_append_left _ _), same⟩
  · refine ⟨List.cons_ne_nil _ _, List.sublist_append_right _ _, fun b here => ?_⟩
    rw [List.mem_singleton.1 here]
  · obtain ⟨_, sub, same⟩ := known.keyed _ old
    refine ⟨List.append_ne_nil_of_right_ne_nil _ (List.cons_ne_nil _ _), sub.append (.refl _),
      fun b here => ?_⟩
    rcases List.mem_append.1 here with inOld | new
    · exact same b inOld
    · rw [List.mem_singleton.1 new]

/-- **Members are dealt out to groups.** -/
theorem grouped_groupBy (key : α → String) (members : List α) :
    Grouped key members (groupBy key members) := by
  have all : ∀ (more done : List α) (groups : List (String × List α)), Grouped key done groups →
      Grouped key (done ++ more)
        (more.foldl (fun groups a => addToGroup (key a) a groups) groups) := by
    intro more
    induction more with
    | nil =>
      intro done groups known
      rwa [List.append_nil]
    | cons a rest hyp =>
      intro done groups known
      have later := hyp _ _ (known.add (a := a))
      rwa [List.append_assoc] at later
  exact all members [] [] ⟨.nil, fun _ here => absurd here List.not_mem_nil, .refl _⟩

/-- Groups hang on the keys alone. -/
theorem groupBy_map (key : β → String) (f : α → β) (members : List α) :
    groupBy key (members.map f) =
      (groupBy (fun a => key (f a)) members).map fun g => (g.1, g.2.map f) := by
  have one : ∀ (a : α) (groups : List (String × List α)),
      addToGroup (key (f a)) (f a) (groups.map fun g => (g.1, g.2.map f)) =
        (addToGroup (key (f a)) a groups).map fun g => (g.1, g.2.map f) := by
    intro a groups
    induction groups with
    | nil => rfl
    | cons first rest hyp =>
      obtain ⟨other, ms⟩ := first
      rw [List.map_cons, addToGroup, addToGroup]
      cases textOrder (key (f a)) other with
      | lt => rfl
      | eq => simp
      | gt => exact congrArg _ hyp
  have all : ∀ (groups : List (String × List α)),
      (members.map f).foldl (fun groups b => addToGroup (key b) b groups)
          (groups.map fun g => (g.1, g.2.map f)) =
        (members.foldl (fun groups a => addToGroup (key (f a)) a groups) groups).map
          fun g => (g.1, g.2.map f) := by
    induction members with
    | nil => exact fun _ => rfl
    | cons a rest hyp =>
      intro groups
      rw [List.map_cons, List.foldl_cons, List.foldl_cons, one, hyp]
  exact all []

end

/-! ### The parts of a drawing -/

/-- What a drawing declares: a numbered node, or a numbered group of parts. -/
inductive Part where
  | node (number : Nat) (n : Node)
  | group (number : Nat) (title : String) (parts : List Part)

mutual

/-- The nodes of a part with their numbers, in the order of their declarations. -/
def Part.declared : Part → List (Nat × Node)
  | .node i n => [(i, n)]
  | .group _ _ parts => declared parts

/-- The nodes of some parts with their numbers. -/
def declared : List Part → List (Nat × Node)
  | [] => []
  | p :: rest => p.declared ++ declared rest

end

mutual

/-- The numbers of the groups of a part, in the order in which they open. -/
def Part.opened : Part → List Nat
  | .node _ _ => []
  | .group i _ parts => i :: opened parts

/-- The numbers of the groups of some parts. -/
def opened : List Part → List Nat
  | [] => []
  | p :: rest => p.opened ++ opened rest

end

/-- What one level of groups goes by: the word before a key, and the key of a node. -/
abbrev Level := String × (Node → String)

/-- Groups of module paths. -/
def modules : Level :=
  ("pkg", fun n => n.modulePath.getD "?")

/-- Groups of receivers; what has none, or an empty one, is a function. -/
def receivers : Level :=
  ("type", fun n => (n.receiver.filter (· ≠ "")).getD "function")

/-- The levels of groups, the outer one first. -/
def levels : Grouping → List Level
  | .flat => []
  | .byModule => [modules]
  | .byType => [receivers]
  | .byModuleAndType => [modules, receivers]

theorem receivers_eq : receivers = ("type", typeKey) := by
  refine congrArg (Prod.mk "type") (funext fun n => ?_)
  rw [typeKey]
  cases n.receiver with
  | none => rfl
  | some t =>
    by_cases empty : t = ""
    · simp [empty, Option.filter]
    · simp [empty, Option.filter]

/-- A group with its key. -/
structure Cluster where
  number : Nat
  key : String
  parts : List Part

/-- A group as a part. -/
def Cluster.toPart (tag : String) (c : Cluster) : Part :=
  .group c.number (tag ++ ":" ++ c.key) c.parts

/-- **Parts in the order and the groups of some levels.** Without levels they are nodes in the order of
their module paths, receivers, names and ids. Else they are groups of which the keys increase; none is
empty, and each declares nodes of its own key, in the order and the groups of the other levels. -/
def Arranged : List Level → List Part → Prop
  | [], parts => ∃ nodes : List (Nat × Node), parts = nodes.map (fun m => .node m.1 m.2) ∧
      Increasing (compareLex (compareOn Node.modulePath) (compareLex (compareOn Node.receiver)
        (compareLex (compareOn Node.name) (compareOn Node.id)))) (nodes.map (·.2))
  | (tag, key) :: inner, parts => ∃ clusters : List Cluster,
      parts = clusters.map (·.toPart tag) ∧ (clusters.map (·.key)).Pairwise (· < ·) ∧
      ∀ c ∈ clusters, declared c.parts ≠ [] ∧ (∀ m ∈ declared c.parts, key m.2 = c.key) ∧
        Arranged inner c.parts

/-! ### Arranging nodes -/

/-- Groups one after the other, when so many nodes and groups have come up before. -/
def clusters (inner : Nat → Nat → List Node → List Part) :
    Nat → Nat → List (String × List Node) → List Cluster
  | _, _, [] => []
  | i, j, (k, ns) :: rest =>
    let parts := inner i (j + 1) ns
    ⟨j + 1, k, parts⟩ :: clusters inner (i + ns.length) (j + 1 + (opened parts).length) rest

/-- The parts of nodes in order, when so many nodes and groups have come up before. -/
def arrange : List Level → Nat → Nat → List Node → List Part
  | [], i, _, ns => (ns.zipIdx (i + 1)).map fun m => .node m.2 m.1
  | (tag, key) :: inner, i, j, ns =>
    (clusters (arrange inner) i j (groupBy key ns)).map (·.toPart tag)

theorem declared_map_node (nodes : List (Nat × Node)) :
    declared (nodes.map fun m => .node m.1 m.2) = nodes := by
  induction nodes with
  | nil => rfl
  | cons m rest hyp => rw [List.map_cons, declared, hyp]; rfl

theorem declared_map_toPart (tag : String) (cs : List Cluster) :
    declared (cs.map (·.toPart tag)) = cs.flatMap fun c => declared c.parts := by
  induction cs with
  | nil => rfl
  | cons c rest hyp => rw [List.map_cons, declared, hyp]; rfl

/-- Clusters are groups, each with the parts of its members. -/
theorem mem_clusters {inner : Nat → Nat → List Node → List Part} {i j : Nat}
    {groups : List (String × List Node)} {c : Cluster} (here : c ∈ clusters inner i j groups) :
    ∃ g ∈ groups, c.key = g.1 ∧ ∃ i' j', c.parts = inner i' j' g.2 := by
  induction groups generalizing i j with
  | nil => cases here
  | cons g rest hyp =>
    rcases List.mem_cons.1 here with rfl | later
    · exact ⟨g, List.mem_cons_self, rfl, i, j + 1, rfl⟩
    · obtain ⟨g', listed, parts⟩ := hyp later
      exact ⟨g', List.mem_cons_of_mem _ listed, parts⟩

theorem map_key_clusters (inner : Nat → Nat → List Node → List Part) (i j : Nat)
    (groups : List (String × List Node)) :
    (clusters inner i j groups).map (·.key) = groups.map (·.1) := by
  induction groups generalizing i j with
  | nil => rfl
  | cons g rest hyp => exact congrArg (g.1 :: ·) (hyp _ _)

/-- **Every node is declared.** -/
theorem perm_declared_arrange (levels : List Level) (i j : Nat) (ns : List Node) :
    ((declared (arrange levels i j ns)).map (·.2)).Perm ns := by
  induction levels generalizing i j ns with
  | nil =>
    have nodes : arrange [] i j ns =
        ((ns.zipIdx (i + 1)).map Prod.swap).map fun m => .node m.1 m.2 := by
      rw [arrange, List.map_map]
      rfl
    rw [nodes, declared_map_node, List.map_map]
    exact .of_eq (List.zipIdx_map_fst (i + 1) ns)
  | cons level inner hyp =>
    obtain ⟨tag, key⟩ := level
    have dealt : ∀ (i j : Nat) (groups : List (String × List Node)),
        (((clusters (arrange inner) i j groups).flatMap fun c => declared c.parts).map (·.2)).Perm
          (groups.flatMap (·.2)) := by
      intro i j groups
      induction groups generalizing i j with
      | nil => exact .refl _
      | cons g rest others =>
        rw [clusters, List.flatMap_cons, List.flatMap_cons, List.map_append]
        exact (hyp i (j + 1) g.2).append (others _ _)
    rw [arrange, declared_map_toPart]
    exact (dealt i j _).trans (grouped_groupBy key ns).all

/-- **Arranged parts are in the order and the groups of their levels.** -/
theorem arranged_arrange (levels : List Level) (i j : Nat) {ns : List Node}
    (sorted : Increasing nodeOrder ns) : Arranged levels (arrange levels i j ns) := by
  induction levels generalizing i j ns with
  | nil =>
    refine ⟨(ns.zipIdx (i + 1)).map Prod.swap, ?_, ?_⟩
    · rw [arrange, List.map_map]
      rfl
    · rw [← nodeOrder_eq, List.map_map]
      show Increasing nodeOrder ((ns.zipIdx (i + 1)).map Prod.fst)
      rwa [List.zipIdx_map_fst]
  | cons level inner hyp =>
    obtain ⟨tag, key⟩ := level
    have grouped := grouped_groupBy key ns
    refine ⟨clusters (arrange inner) i j (groupBy key ns), rfl, ?_, fun c here => ?_⟩
    · rw [map_key_clusters]
      exact grouped.increasing
    · obtain ⟨g, listed, sameKey, i', j', parts⟩ := mem_clusters here
      obtain ⟨some, sub, keyed⟩ := grouped.keyed g listed
      have all := perm_declared_arrange inner i' j' g.2
      rw [parts, sameKey]
      refine ⟨fun none => some ?_, fun m inParts => ?_, hyp i' j' (sorted.sublist sub)⟩
      · rw [none] at all
        exact all.symm.eq_nil
      · exact keyed m.2 (all.mem_iff.1 (List.mem_map_of_mem inParts))

end Diagram

end CallGraph
