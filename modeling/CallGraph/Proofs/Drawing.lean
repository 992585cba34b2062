import CallGraph.Diagram.Dot
import CallGraph.Diagram.Mermaid
import CallGraph.Proofs.Arrangement
import CallGraph.Proofs.Records

/-!
**A drawing shows the nodes and pairs of a flow.**

The theory of the two drawings. Sections become numbered parts, and the lines of a drawing are the
lines of these parts, followed by one line for each pair of the flow.

* `Numbered` — the parts that some sections become, `numbered_sectionsBy` — those of a layout;
* `Mermaid.partsLines`, `Dot.partsLines` — the lines of some parts;
* `parts`, `arcs` — what a drawing declares and joins, `mem_declared_parts`, `mem_arcs`;
* `mermaid_lines_eq`, `dot_lines_eq` — the lines of a drawing are theirs;
* `parts_arcs_congr` — flows that join the same look the same.
-/

namespace CallGraph

namespace Diagram

open CallGraph.Flow CallGraph.Graph

/-! ### From sections to parts -/

/-- **The parts that sections become** under a numbering, with the groups that have been opened
before them and by their end. -/
inductive Numbered (g : Graph) (ns : Numbering) : Nat → List Section → List Part → Nat → Prop
  | nil {j : Nat} : Numbered g ns j [] [] j
  | node {j k v : Nat} {n : Node} {rest : List Section} {parts : List Part} :
    g.node? v = some n → Numbered g ns j rest parts k →
      Numbered g ns j (.node v :: rest) (.node (ns.number v) n :: parts) k
  | group {j k l : Nat} {title : String} {inside rest : List Section} {inner parts : List Part} :
    Numbered g ns (j + 1) inside inner k → Numbered g ns k rest parts l →
      Numbered g ns j (.group title inside :: rest) (.group (j + 1) title inner :: parts) l

namespace Numbered

variable {g : Graph} {ns : Numbering} {j k l : Nat} {sections more : List Section}
  {parts others : List Part}

/-- The nodes of the sections are declared, in their order and under their numbers. -/
theorem declared_eq (numbered : Numbered g ns j sections parts k) :
    declared parts =
      (sectionNodes sections).filterMap fun v => (g.node? v).map fun n => (ns.number v, n) := by
  induction numbered with
  | nil => rfl
  | @node j k v n rest parts atV _ hyp =>
    show (ns.number v, n) :: declared parts = List.filterMap _ (v :: sectionNodes rest)
    rw [hyp, List.filterMap_cons, atV]
    rfl
  | @group j k l title inside rest inner parts _ _ hyp hyp' =>
    show declared inner ++ declared parts =
      List.filterMap _ (sectionNodes inside ++ sectionNodes rest)
    rw [hyp, hyp', List.filterMap_append]

/-- Groups are numbered in the order in which they open. -/
theorem opened_eq (numbered : Numbered g ns j sections parts k) :
    opened parts = List.range' (j + 1) (opened parts).length ∧ k = j + (opened parts).length := by
  induction numbered with
  | nil => exact ⟨rfl, rfl⟩
  | node _ _ hyp => exact hyp
  | @group j k l title inside rest inner parts _ _ hyp hyp' =>
    obtain ⟨first, rfl⟩ := hyp
    obtain ⟨second, rfl⟩ := hyp'
    generalize (opened inner).length = a at *
    generalize (opened parts).length = b at *
    have all : opened (.group (j + 1) title inner :: parts) = List.range' (j + 1) (a + 1 + b) := by
      show (j + 1) :: opened inner ++ opened parts = _
      rw [first, second, ← List.range'_append_1, List.range'_succ, Nat.add_assoc (j + 1) a 1]
    rw [all, List.length_range']
    exact ⟨rfl, by omega⟩

end Numbered

/-! ### The sections of a layout -/

/-- The sections of nodes in the groups of some levels. -/
def sectionsBy : List Level → List (Nat × Node) → List Section
  | [], members => plain members
  | (tag, key) :: inner, members => grouped tag key (sectionsBy inner) members

theorem layout_eq (g : Graph) (f : Flow) (grouping : Grouping) :
    layout g f grouping = sectionsBy (levels grouping) (sortedNodes g f) := by
  cases grouping with
  | flat => rfl
  | byModule => rfl
  | byType =>
    rw [levels, receivers_eq]
    rfl
  | byModuleAndType =>
    rw [levels, receivers_eq]
    rfl

theorem sectionNodes_map_group (title : String → String) (groups : List (String × List (Nat × Node)))
    (inner : List (Nat × Node) → List Section) :
    sectionNodes (groups.map fun g => .group (title g.1) (inner g.2)) =
      groups.flatMap fun g => sectionNodes (inner g.2) := by
  induction groups with
  | nil => rfl
  | cons g rest hyp =>
    rw [List.map_cons, sectionNodes, hyp]
    rfl

/-- No node is lost or doubled. -/
theorem perm_sectionNodes (levels : List Level) (members : List (Nat × Node)) :
    (sectionNodes (sectionsBy levels members)).Perm (members.map (·.1)) := by
  induction levels generalizing members with
  | nil =>
    rw [sectionsBy]
    refine .of_eq ?_
    induction members with
    | nil => rfl
    | cons m rest hyp => exact congrArg (m.1 :: ·) hyp
  | cons level inner hyp =>
    obtain ⟨tag, key⟩ := level
    rw [sectionsBy, grouped, sectionNodes_map_group (tag ++ ":" ++ ·)]
    have dealt := (grouped_groupBy (fun m : Nat × Node => key m.2) members).all.map (·.1)
    rw [List.map_flatMap] at dealt
    exact (List.Perm.flatMap_left _ fun g _ => hyp g.2).trans dealt

/-- The sections of some levels become their parts under a numbering, if the nodes are numbered in the
order in which they come up, after `i` nodes and `j` groups. -/
def Becomes (g : Graph) (ns : Numbering) (levels : List Level) : Prop :=
  ∀ (i j : Nat) (members : List (Nat × Node)), (∀ m ∈ members, g.node? m.1 = some m.2) →
    (sectionNodes (sectionsBy levels members)).map ns.number = List.range' (i + 1) members.length →
    ∃ k, Numbered g ns j (sectionsBy levels members) (arrange levels i j (members.map (·.2))) k

theorem becomes_nil (g : Graph) (ns : Numbering) : Becomes g ns [] := by
  intro i j members nodes inOrder
  refine ⟨j, ?_⟩
  induction members generalizing i with
  | nil => exact .nil
  | cons m rest hyp =>
    obtain ⟨first, others⟩ := List.cons_eq_cons.1 inOrder
    have number : ns.number m.1 = i + 1 := first
    have later := hyp (i + 1) (fun m' here => nodes m' (List.mem_cons_of_mem m here)) others
    have here : Numbered g ns j (.node m.1 :: plain rest)
        (.node (ns.number m.1) m.2 :: arrange [] (i + 1) j (rest.map (·.2))) j :=
      .node (nodes m List.mem_cons_self) later
    rwa [number] at here

/-- Group by group. -/
theorem Becomes.groups {g : Graph} {ns : Numbering} {inner : List Level}
    (becomes : Becomes g ns inner) (tag : String) (i j : Nat)
    {groups : List (String × List (Nat × Node))}
    (nodes : ∀ m ∈ groups.flatMap (·.2), g.node? m.1 = some m.2)
    (inOrder : (groups.flatMap fun d => sectionNodes (sectionsBy inner d.2)).map ns.number =
      List.range' (i + 1) (groups.flatMap (·.2)).length) :
    ∃ k, Numbered g ns j
      (groups.map fun d => .group (tag ++ ":" ++ d.1) (sectionsBy inner d.2))
      ((clusters (arrange inner) i j (groups.map fun d => (d.1, d.2.map (·.2)))).map
        (·.toPart tag)) k := by
  induction groups generalizing i j with
  | nil => exact ⟨j, .nil⟩
  | cons d rest hyp =>
    have size : (sectionNodes (sectionsBy inner d.2)).length = d.2.length := by
      rw [(perm_sectionNodes inner d.2).length_eq, List.length_map]
    rw [List.flatMap_cons, List.flatMap_cons, List.map_append, List.length_append,
      ← List.range'_append_1] at inOrder
    obtain ⟨first, later⟩ := List.append_inj inOrder (by simp [size])
    obtain ⟨k, inside⟩ := becomes i (j + 1) d.2
      (fun m here => nodes m (List.mem_append_left _ here)) first
    obtain ⟨l, after⟩ := hyp (i + d.2.length) k
      (fun m here => nodes m (List.mem_append_right _ here)) (by rwa [Nat.add_right_comm] at later)
    have parts : Numbered g ns j (.group (tag ++ ":" ++ d.1) _ :: _) _ l := .group inside after
    rw [inside.opened_eq.2] at parts
    rw [List.map_cons, List.map_cons, clusters, List.map_cons, List.length_map]
    exact ⟨l, parts⟩

/-- **The sections of nodes become their parts**, at all levels. -/
theorem numbered_sectionsBy (g : Graph) (ns : Numbering) (levels : List Level) :
    Becomes g ns levels := by
  induction levels with
  | nil => exact becomes_nil g ns
  | cons level inner hyp =>
    intro i j members nodes inOrder
    obtain ⟨tag, key⟩ := level
    have dealt := grouped_groupBy (fun m : Nat × Node => key m.2) members
    rw [sectionsBy, arrange, groupBy_map]
    refine hyp.groups tag i j (fun m here => nodes m (dealt.all.mem_iff.1 here)) ?_
    rw [dealt.all.length_eq, ← inOrder, sectionsBy, grouped, sectionNodes_map_group (tag ++ ":" ++ ·)]

/-! ### Numbers -/

theorem order_foldl_visit {ns : Numbering} {vs : List Nat} (distinct : (ns.order ++ vs).Nodup) :
    (vs.foldl Numbering.visit ns).order = ns.order ++ vs := by
  induction vs generalizing ns with
  | nil => exact (List.append_nil _).symm
  | cons v rest hyp =>
    have new : v ∉ ns.order := fun old =>
      (List.nodup_append.1 distinct).2.2 v old v List.mem_cons_self rfl
    have visited : ns.visit v = ⟨ns.order ++ [v]⟩ := if_neg new
    rw [List.append_cons] at distinct ⊢
    rw [List.foldl_cons, visited]
    exact hyp distinct

/-- **Nodes are numbered from one on, as they come up.** -/
theorem map_number_numbering {sections : List Section} (distinct : (sectionNodes sections).Nodup) :
    (sectionNodes sections).map (numbering sections).number =
      List.range' 1 (sectionNodes sections).length := by
  have order : (numbering sections).order = sectionNodes sections := order_foldl_visit distinct
  refine List.ext_getElem (by simp) fun i inRange _ => ?_
  rw [List.length_map] at inRange
  have found := (findIdx?_beq_eq_some_iff distinct).2 (List.getElem?_eq_getElem inRange)
  rw [List.getElem_map, List.getElem_range', Numbering.number, Numbering.number?, order, found]
  show i + 1 = 1 + 1 * i
  omega

/-! ### Lines -/

namespace Mermaid

mutual

/-- The lines of a part. -/
def partLines : Part → List String
  | .node i n => ["N" ++ i.repr ++ "[\"" ++ label n ++ "\"]"]
  | .group i title parts => groupLine i title :: partsLines parts ++ ["end"]

/-- The lines of some parts. -/
def partsLines : List Part → List String
  | [] => []
  | p :: rest => partLines p ++ partsLines rest

end

end Mermaid

namespace Dot

mutual

/-- The lines of a part that stands so deep. -/
def partLines (indent : Nat) : Part → List String
  | .node i n => [pad indent ++ "N" ++ i.repr ++ " [label=\"" ++ escapeLabel (label n) ++
      "\", style=\"" ++ (look n).2 ++ "\", fillcolor=\"" ++ (look n).1 ++ "\"];"]
  | .group i title parts =>
    clusterLines indent i title ++ partsLines (indent + 1) parts ++ [pad indent ++ "\x7d"]

/-- The lines of some parts that stand so deep. -/
def partsLines (indent : Nat) : List Part → List String
  | [] => []
  | p :: rest => partLines indent p ++ partsLines indent rest

end

end Dot

namespace Numbered

variable {g : Graph} {ns : Numbering} {j k : Nat} {sections : List Section} {parts : List Part}

theorem mermaidLines (numbered : Numbered g ns j sections parts k) :
    Mermaid.allLines g ns j sections = (Mermaid.partsLines parts, k) := by
  induction numbered with
  | nil => rfl
  | @node j k v n rest parts atV _ hyp =>
    show (Mermaid.nodeLine g ns v :: (Mermaid.allLines g ns j rest).1, _) = _
    rw [hyp, Mermaid.nodeLine, atV]
    rfl
  | group _ _ hyp hyp' =>
    rw [Mermaid.allLines, Mermaid.sectionLines, hyp]
    simp only
    rw [hyp']
    rfl

theorem dotLines (numbered : Numbered g ns j sections parts k) (indent : Nat) :
    Dot.allLines g ns indent j sections = (Dot.partsLines indent parts, k) := by
  induction numbered generalizing indent with
  | nil => rfl
  | @node j k v n rest parts atV _ hyp =>
    show (Dot.nodeLine g ns indent v :: (Dot.allLines g ns indent j rest).1, _) = _
    rw [hyp, Dot.nodeLine, atV]
    rfl
  | group _ _ hyp hyp' =>
    rw [Dot.allLines, Dot.sectionLines, hyp]
    simp only
    rw [hyp']
    rfl

end Numbered

/-! ### What a flow looks like -/

/-- What the drawing of a flow declares. -/
def parts (g : Graph) (f : Flow) (grouping : Grouping) : List Part :=
  arrange (levels grouping) 0 0 ((sortedNodes g f).map (·.2))

/-- What it joins. -/
def arcs (g : Graph) (f : Flow) (grouping : Grouping) : List (Nat × Nat) :=
  sortedArcs (numbering (layout g f grouping)) f

/-- The order of pairs of numbers. -/
def arcOrder (a b : Nat × Nat) : Ordering :=
  (compare a.1 b.1).then (compare a.2 b.2)

instance : Std.TransCmp arcOrder :=
  inferInstanceAs (Std.TransCmp (compareLex (compareOn Prod.fst) (compareOn Prod.snd)))

theorem arcLE_eq (a b : Nat × Nat) : arcLE a b = (arcOrder a b).isLE := by
  unfold arcLE arcOrder
  rcases Nat.lt_trichotomy a.1 b.1 with less | same | more
  · rw [Nat.compare_eq_lt.2 less]
    simp [less]
  · rw [Nat.compare_eq_eq.2 same]
    rw [Bool.eq_iff_iff]
    simp [same, Nat.isLE_compare]
  · rw [Nat.compare_eq_gt.2 more]
    simp
    omega

section

variable {g : Graph} {f : Flow}

theorem node?_of_mem_sortedNodes {m : Nat × Node} (here : m ∈ sortedNodes g f) :
    g.node? m.1 = some m.2 := by
  rw [sortedNodes, List.mem_mergeSort] at here
  obtain ⟨v, _, made⟩ := List.mem_filterMap.1 here
  obtain ⟨n, atV, rfl⟩ := Option.map_eq_some_iff.1 made
  exact atV

theorem mem_map_sortedNodes {n : Node} : n ∈ (sortedNodes g f).map (·.2) ↔ f.Has g n := by
  rw [List.mem_map]
  constructor
  · rintro ⟨m, here, rfl⟩
    rw [sortedNodes, List.mem_mergeSort] at here
    obtain ⟨v, listed, made⟩ := List.mem_filterMap.1 here
    obtain ⟨n, atV, rfl⟩ := Option.map_eq_some_iff.1 made
    exact ⟨v, listed, atV⟩
  · rintro ⟨v, listed, atV⟩
    refine ⟨(v, n), ?_, rfl⟩
    rw [sortedNodes, List.mem_mergeSort]
    exact List.mem_filterMap.2 ⟨v, listed, Option.map_eq_some_iff.2 ⟨n, atV, rfl⟩⟩

/-- The nodes of a flow, sorted. -/
theorem perm_sortedNodes (of : f.Of g) (wf : g.WellFormed) :
    ((sortedNodes g f).map (·.1)).Perm f.nodes := by
  refine ((List.mergeSort_perm _ _).map _).trans (.of_eq ?_)
  rw [List.map_filterMap]
  refine (List.filterMap_congr fun v here => ?_).trans List.filterMap_some
  obtain ⟨n, atV⟩ := of.exists_node wf here
  rw [atV]
  rfl

theorem increasing_sortedNodes (wf : g.WellFormed) :
    Increasing nodeOrder ((sortedNodes g f).map (·.2)) := by
  have sorted : (sortedNodes g f).map (·.2) =
      (f.nodes.filterMap g.node?).mergeSort fun a b => (nodeOrder a b).isLE := by
    have onNodes : ∀ members : List (Nat × Node),
        (members.mergeSort fun a b => (nodeOrder a.2 b.2).isLE).map (·.2) =
          (members.map (·.2)).mergeSort fun a b => (nodeOrder a b).isLE :=
      fun members => List.map_mergeSort fun _ _ _ _ => rfl
    rw [sortedNodes, onNodes, List.map_filterMap]
    congr
    funext v
    cases g.node? v <;> rfl
  rw [sorted]
  refine increasing_mergeSort ?_
  apply (pairwise_id_ne wf f).imp
  intro n m differ same
  exact differ (id_eq_of_nodeOrder same)

variable (of : f.Of g) (wf : g.WellFormed) (grouping : Grouping)

include of wf

/-- The nodes of a layout are those of the flow, each once. -/
theorem perm_sectionNodes_layout : (sectionNodes (layout g f grouping)).Perm f.nodes := by
  rw [layout_eq]
  exact (perm_sectionNodes _ _).trans (perm_sortedNodes of wf)

theorem nodup_sectionNodes_layout : (sectionNodes (layout g f grouping)).Nodup :=
  (perm_sectionNodes_layout of wf grouping).nodup_iff.2 ((pairwise_nodes f).imp Nat.ne_of_lt)

/-- Nodes are numbered from one on. -/
theorem map_number_layout :
    (sectionNodes (layout g f grouping)).map (numbering (layout g f grouping)).number =
      List.range' 1 f.nodeCount := by
  rw [map_number_numbering (nodup_sectionNodes_layout of wf grouping),
    (perm_sectionNodes_layout of wf grouping).length_eq, Flow.nodeCount]

/-- **The sections of a flow become its parts.** -/
theorem numbered_layout : ∃ k, Numbered g (numbering (layout g f grouping)) 0
    (layout g f grouping) (parts g f grouping) k := by
  have inOrder := map_number_layout of wf grouping
  rw [Flow.nodeCount, ← (perm_sortedNodes of wf).length_eq, List.length_map] at inOrder
  rw [layout_eq] at inOrder ⊢
  exact numbered_sectionsBy g _ (levels grouping) 0 0 _ (fun m => node?_of_mem_sortedNodes) inOrder

/-- Declarations are numbered from one on. -/
theorem map_fst_declared_parts :
    (declared (parts g f grouping)).map (·.1) = List.range' 1 f.nodeCount := by
  obtain ⟨k, numbered⟩ := numbered_layout of wf grouping
  rw [numbered.declared_eq, List.map_filterMap, ← map_number_layout of wf grouping,
    ← List.filterMap_eq_map]
  refine List.filterMap_congr fun v here => ?_
  obtain ⟨n, atV⟩ := of.exists_node wf ((perm_sectionNodes_layout of wf grouping).mem_iff.1 here)
  rw [atV]
  rfl

/-- **What is declared**: each node of the flow, under its number. -/
theorem mem_declared_parts {i : Nat} {n : Node} : (i, n) ∈ declared (parts g f grouping) ↔
    ∃ v ∈ f.nodes, g.node? v = some n ∧ (numbering (layout g f grouping)).number v = i := by
  obtain ⟨k, numbered⟩ := numbered_layout of wf grouping
  rw [numbered.declared_eq, List.mem_filterMap]
  refine exists_congr fun v => and_congr (perm_sectionNodes_layout of wf grouping).mem_iff ?_
  rw [Option.map_eq_some_iff]
  simp only [Prod.mk.injEq]
  constructor
  · rintro ⟨n, atV, number, rfl⟩
    exact ⟨atV, number⟩
  · rintro ⟨atV, number⟩
    exact ⟨n, atV, number, rfl⟩

/-- Different nodes have different numbers. -/
theorem number_inj {u v : Nat} (left : u ∈ f.nodes) (right : v ∈ f.nodes)
    (same : (numbering (layout g f grouping)).number u = (numbering (layout g f grouping)).number v) :
    u = v := by
  have all := perm_sectionNodes_layout of wf grouping
  have distinct : ((sectionNodes (layout g f grouping)).map
      (numbering (layout g f grouping)).number).Nodup := by
    rw [map_number_layout of wf grouping]
    exact List.nodup_range'
  exact List.inj_on_of_nodup_map distinct (all.mem_iff.2 left) (all.mem_iff.2 right) same

/-- **The arcs are those of the flow**: both ends are declared, and the nodes declared there are
joined. -/
theorem mem_arcs {i j : Nat} : (i, j) ∈ arcs g f grouping ↔
    ∃ n m, f.Joins g n m ∧ (i, n) ∈ declared (parts g f grouping) ∧
      (j, m) ∈ declared (parts g f grouping) := by
  have ends : ∀ link ∈ f.links, link.caller ∈ f.nodes ∧ link.callee ∈ f.nodes := fun link here =>
    ⟨mem_nodes.2 ⟨link, here, Or.inl rfl⟩, mem_nodes.2 ⟨link, here, Or.inr rfl⟩⟩
  simp only [mem_declared_parts of wf]
  rw [arcs, sortedArcs, List.mem_mergeSort, List.mem_map]
  constructor
  · rintro ⟨link, here, same⟩
    cases same
    obtain ⟨n, m, caller, callee⟩ := of.exists_nodes wf here
    obtain ⟨left, right⟩ := ends link here
    exact ⟨n, m, ⟨link, here, caller, callee⟩, ⟨_, left, caller, rfl⟩, ⟨_, right, callee, rfl⟩⟩
  · rintro ⟨n, m, ⟨link, here, caller, callee⟩, ⟨u, _, atU, rfl⟩, ⟨v, _, atV, rfl⟩⟩
    refine ⟨link, here, ?_⟩
    rw [wf.node?_inj atU caller rfl, wf.node?_inj atV callee rfl]

/-- Arcs increase. -/
theorem increasing_arcs : Increasing arcOrder (arcs g f grouping) := by
  have order : arcLE = fun a b => (arcOrder a b).isLE := by
    funext a b
    exact arcLE_eq a b
  rw [arcs, sortedArcs, order]
  refine increasing_mergeSort ?_
  rw [List.pairwise_map]
  apply of.ordered.imp_of_mem
  intro a b first second before same
  obtain ⟨callers, callees⟩ := Ordering.then_eq_eq.1 same
  have sameCaller := number_inj of wf grouping (mem_nodes.2 ⟨a, first, Or.inl rfl⟩)
    (mem_nodes.2 ⟨b, second, Or.inl rfl⟩) (Nat.compare_eq_eq.1 callers)
  have sameCallee := number_inj of wf grouping (mem_nodes.2 ⟨a, first, Or.inr rfl⟩)
    (mem_nodes.2 ⟨b, second, Or.inr rfl⟩) (Nat.compare_eq_eq.1 callees)
  exact Link.not_samePair_of_before before (Link.samePair_iff.2 ⟨sameCaller.symm, sameCallee.symm⟩)

omit of wf in
theorem length_arcs : (arcs g f grouping).length = f.edgeCount := by
  rw [arcs, sortedArcs, List.length_mergeSort, List.length_map, Flow.edgeCount]

/-- **The lines of a flowchart** are those of its parts and arcs. -/
theorem mermaid_lines_eq : Mermaid.lines g f grouping =
    "flowchart LR" :: Mermaid.partsLines (parts g f grouping) ++
      (arcs g f grouping).map Mermaid.arcLine := by
  obtain ⟨k, numbered⟩ := numbered_layout of wf grouping
  show _ :: (Mermaid.allLines g (numbering (layout g f grouping)) 0 (layout g f grouping)).1 ++ _ = _
  rw [numbered.mermaidLines]
  rfl

/-- **The lines of a Graphviz drawing** are those of its parts and arcs. -/
theorem dot_lines_eq : Dot.lines g f grouping =
    Dot.opening ++ Dot.partsLines 1 (parts g f grouping) ++ [""] ++
      (arcs g f grouping).map Dot.arcLine ++ ["\x7d"] := by
  obtain ⟨k, numbered⟩ := numbered_layout of wf grouping
  show _ ++ (Dot.allLines g (numbering (layout g f grouping)) 1 0 (layout g f grouping)).1 ++ _ ++
    _ ++ _ = _
  rw [numbered.dotLines 1]
  rfl

end

/-! ### Flows that look the same -/

/-- **Flows that join the same look the same**, however their graphs were built. -/
theorem parts_arcs_congr {g g' : Graph} {f f' : Flow} (of : f.Of g) (wf : g.WellFormed) (of' : f'.Of g')
    (wf' : g'.WellFormed) (same : ∀ n m, f.Joins g n m ↔ f'.Joins g' n m) (grouping : Grouping) :
    parts g f grouping = parts g' f' grouping ∧ arcs g f grouping = arcs g' f' grouping := by
  have sorted : (sortedNodes g f).map (·.2) = (sortedNodes g' f').map (·.2) := by
    refine (increasing_sortedNodes wf).eq_of_mem_iff (increasing_sortedNodes wf') fun n => ?_
    rw [mem_map_sortedNodes, mem_map_sortedNodes, of.has_iff wf, of'.has_iff wf']
    simp only [same]
  have sameParts : parts g f grouping = parts g' f' grouping := by
    rw [parts, sorted, parts]
  refine ⟨sameParts, ?_⟩
  refine (increasing_arcs of wf grouping).eq_of_mem_iff (increasing_arcs of' wf' grouping)
    fun arc => ?_
  obtain ⟨i, j⟩ := arc
  rw [mem_arcs of wf, mem_arcs of' wf', sameParts]
  simp only [same]

end Diagram

end CallGraph
