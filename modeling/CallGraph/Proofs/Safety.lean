import CallGraph.Proofs.Building
import CallGraph.Proofs.Rendering

/-!
**Queries stay in range.**

Whatever has been built, the queries about it find every node, edge and table entry that they look for,
with two exceptions: the report of a walk looks up the start once more, without a look at whether there
is such a node, and stripping looks up the declared roots.

* `Writes` — the lines of a drawing, told by the style that it has, `allLines?_eq` — by induction on the
  sections;
* `render?_eq` — the texts of a flow;
* `depth_of_outside`, `not_admits_of_outside` — what a depth map says of numbers that are no nodes;
* `InRange` — what is in range, `inRange_of_built` — and that it is.
-/

namespace CallGraph

namespace Access

open Diagram

variable {s : Store} {f : Flow}

/-! ### Drawings -/

/-- **Lines that are written in a style**: one for each node, and those of a group around its own. -/
structure Writes (g : Graph) (style : Style) (ns : Numbering)
    (lines : Nat → Nat → List Section → List String × Nat) : Prop where
  nil : ∀ indent k, lines indent k [] = ([], k)
  node : ∀ indent k v n rest, g.node? v = some n → lines indent k (.node v :: rest) =
    (style.node indent (ns.number v) n :: (lines indent k rest).1, (lines indent k rest).2)
  group : ∀ indent k title inside rest, lines indent k (.group title inside :: rest) =
    let inner := lines (indent + 1) (k + 1) inside
    let others := lines indent inner.2 rest
    (style.opening indent (k + 1) title ++ inner.1 ++ [style.closing indent] ++ others.1, others.2)

theorem writes_mermaid (g : Graph) (ns : Numbering) :
    Writes g mermaid ns fun _ k sections => Mermaid.allLines g ns k sections := by
  refine ⟨fun _ _ => rfl, fun _ k v n rest atV => ?_, fun _ _ _ _ _ => rfl⟩
  show (Mermaid.nodeLine g ns v :: (Mermaid.allLines g ns k rest).1, _) = _
  rw [Mermaid.nodeLine, atV]
  rfl

theorem writes_dot (g : Graph) (ns : Numbering) : Writes g dot ns (Dot.allLines g ns) := by
  refine ⟨fun _ _ => rfl, fun indent k v n rest atV => ?_, fun _ _ _ _ _ => rfl⟩
  show (Dot.nodeLine g ns indent v :: (Dot.allLines g ns indent k rest).1, _) = _
  rw [Dot.nodeLine, atV]
  rfl

/-- **Sections whose nodes there are can be written.** -/
theorem allLines?_eq {style : Style} {ns : Numbering}
    {lines : Nat → Nat → List Section → List String × Nat} (writes : Writes s.graph style ns lines)
    (indent k : Nat) : (sections : List Section) →
      (∀ v ∈ sectionNodes sections, ∃ n, s.graph.node? v = some n) →
      allLines? s style ns indent k sections = some (lines indent k sections)
  | [], _ => congrArg some (writes.nil indent k).symm
  | .node v :: rest, known => by
    obtain ⟨n, atV⟩ := known v List.mem_cons_self
    have later := allLines?_eq writes indent k rest fun w here => known w (List.mem_cons_of_mem v here)
    rw [allLines?, sectionLines?, node?_eq, atV, writes.node indent k v n rest atV]
    dsimp only [Option.map_some, Option.bind_eq_bind, Option.bind_some]
    rw [later]
    rfl
  | .group title inside :: rest, known => by
    have first := allLines?_eq writes (indent + 1) (k + 1) inside
      fun w here => known w (List.mem_append_left _ here)
    have later := allLines?_eq writes indent (lines (indent + 1) (k + 1) inside).2 rest
      fun w here => known w (List.mem_append_right _ here)
    rw [allLines?, sectionLines?, first, writes.group]
    dsimp only [Option.bind_eq_bind, Option.bind_some, Option.pure_def]
    rw [later]
    rfl
termination_by sections => sizeOf sections

/-- The sections of a layout have nodes of the graph. -/
theorem exists_node?_of_layout {g : Graph} {grouping : Grouping} {v : Nat}
    (here : v ∈ sectionNodes (layout g f grouping)) : ∃ n, g.node? v = some n := by
  rw [layout_eq, (perm_sectionNodes _ _).mem_iff] at here
  obtain ⟨m, sorted, rfl⟩ := List.mem_map.1 here
  exact ⟨m.2, node?_of_mem_sortedNodes sorted⟩

section

variable (linked : s.Linked) (of : f.Of s.graph)

include linked of

/-- The nodes of a flow are nodes of its graph. -/
theorem lt_of_mem_nodes {v : Nat} (here : v ∈ f.nodes) : v < s.slots.size := by
  obtain ⟨link, listed, ends⟩ := Flow.mem_nodes.1 here
  obtain ⟨e, joins, caller, callee⟩ := of.joins link listed
  obtain ⟨left, right⟩ := ends_of_getElem? linked joins
  rcases ends with rfl | rfl
  · exact caller ▸ left
  · exact callee ▸ right

theorem layout?_eq (grouping : Grouping) :
    layout? s f grouping = some (layout s.graph f grouping) := by
  have members : f.nodes.mapM (fun v => (node? s v).map fun n => (v, n)) =
      some (f.nodes.filterMap fun v => (s.graph.node? v).map fun n => (v, n)) := by
    simp only [node?_eq]
    refine mapM_eq_filterMap fun v here => ?_
    obtain ⟨n, atV⟩ := exists_node? (lt_of_mem_nodes linked of here)
    exact ⟨(v, n), by rw [atV, Option.map_some]⟩
  have sorted : sortedNodes? s f = some (sortedNodes s.graph f) := by
    rw [sortedNodes?, members]
    rfl
  rw [layout?, sorted]
  cases grouping <;> rfl

/-- The edge of a pair is there, and so are its ends. -/
theorem edgeRecord?_eq {link : Link} (here : link ∈ f.links) : ∃ e, s.graph.edges[link.edge]? = some e ∧
    edgeRecord? s link = some (EdgeRecord.ofEdge s.graph e) := by
  obtain ⟨e, joins, _⟩ := of.joins link here
  obtain ⟨left, right⟩ := ends_of_getElem? linked joins
  obtain ⟨n, atCaller⟩ := exists_node? left
  obtain ⟨m, atCallee⟩ := exists_node? right
  have stored : s.edges[link.edge]? = some e := joins
  refine ⟨e, joins, ?_⟩
  rw [edgeRecord?, stored, EdgeRecord.ofEdge, Graph.idOf_of_node? atCaller,
    Graph.idOf_of_node? atCallee]
  dsimp only [Option.bind_eq_bind, Option.bind_some]
  rw [node?_eq, node?_eq, atCaller, atCallee]
  rfl

theorem ofSelection?_eq : ofSelection? s f = some (Document.ofSelection s.graph f) := by
  have nodes : f.nodes.mapM (node? s) = some (f.nodes.filterMap s.graph.node?) := by
    rw [funext (node?_eq s)]
    exact mapM_eq_filterMap fun v here => exists_node? (lt_of_mem_nodes linked of here)
  have edges : f.links.mapM (edgeRecord? s) =
      some ((f.links.filterMap fun link => s.graph.edges[link.edge]?).map
        (EdgeRecord.ofEdge s.graph)) := by
    rw [mapM_eq_filterMap fun link here => ?_, List.map_filterMap]
    · refine congrArg some (List.filterMap_congr fun link here => ?_)
      obtain ⟨e, joins, record⟩ := edgeRecord?_eq linked of here
      rw [record, joins]
      rfl
    · obtain ⟨e, _, record⟩ := edgeRecord?_eq linked of here
      exact ⟨_, record⟩
  rw [ofSelection?, nodes, edges]
  rfl

/-- **The texts of a flow stay in range**, in every format. -/
theorem render?_eq (format : Format) (grouping : Grouping) :
    render? s f format grouping = some (renderFlow s.graph f format grouping) := by
  have known : ∀ v ∈ sectionNodes (layout s.graph f grouping), ∃ n, s.graph.node? v = some n :=
    fun v here => exists_node?_of_layout here
  cases format with
  | mermaid =>
    have lines := allLines?_eq (writes_mermaid s.graph (numbering (layout s.graph f grouping))) 0 0 _
      known
    rw [render?, renderMermaid?, layout?_eq linked of]
    dsimp only [Option.bind_eq_bind, Option.bind_some]
    rw [lines]
    rfl
  | dot =>
    have lines := allLines?_eq (writes_dot s.graph (numbering (layout s.graph f grouping))) 1 0 _ known
    rw [render?, renderDot?, layout?_eq linked of]
    dsimp only [Option.bind_eq_bind, Option.bind_some]
    rw [lines]
    rfl
  | json =>
    rw [render?, ofSelection?_eq linked of]
    rfl

end

/-! ### Depths of numbers that are no nodes -/

section

variable {g : Graph} {roots : List Nat} {bound : Nat} {interrupt : Interrupt} {m : DepthMap}
  (measured : (DepthMap.measure g roots bound interrupt).run.value = .ok m)

include measured

/-- What is no node has no depth. -/
theorem depth_of_outside {v : Nat} (outside : g.contains v = false) : m.depth v = none := by
  have same : m = DepthMap.measured g roots bound := by
    rcases DepthMap.value_measure_cases g roots bound interrupt with value | ⟨cause, value, _⟩
    · rw [value] at measured
      exact (Except.ok.inj measured).symm
    · rw [value] at measured
      cases measured
  have size : m.distances.size = g.nodes.size := same ▸ (searched_search _ _ _ _).size
  have beyond : m.distances.size ≤ v := size ▸ Nat.le_of_not_lt (of_decide_eq_false outside)
  rw [DepthMap.depth, Distances.get, Array.getElem?_eq_none beyond]
  rfl

/-- A call with an end that is no node is not admitted. -/
theorem not_admits_of_outside {e : Edge}
    (outside : g.contains e.caller = false ∨ g.contains e.callee = false) : m.admits e = false := by
  unfold DepthMap.admits
  rcases outside with caller | callee
  · rw [depth_of_outside measured caller]
    rfl
  · rw [depth_of_outside measured callee]
    exact Bool.and_false _

end

/-! ### All queries -/

/-- **Which queries about a store are in range**: they find every node, edge and entry of a table that
they look for, and the answer is the one about its graph. -/
structure InRange (s : Store) : Prop where
  /-- Measurements, whatever numbers their roots are. -/
  measured : ∀ roots bound interrupt, measure? s roots bound interrupt =
    some (DepthMap.measure s.graph roots bound interrupt).run.value
  /-- A depth map can be asked for any number, but has depths of nodes only. -/
  depths : ∀ {roots bound interrupt m},
    (DepthMap.measure s.graph roots bound interrupt).run.value = .ok m →
      (∀ v, s.graph.contains v = false → m.depth v = none) ∧
      ∀ e, s.graph.contains e.caller = false ∨ s.graph.contains e.callee = false →
        m.admits e = false
  /-- Walks, wherever they start. -/
  walked : ∀ config direction bound start interrupt,
    let f := (Filter.bind s.graph config).value
    toward? s config f.focus direction bound start interrupt =
      some (Walk.toward f direction bound start interrupt)
  /-- Reports of walks that start at a node. -/
  reported : ∀ config direction bound start interrupt, s.graph.contains start = true →
    let f := (Filter.bind s.graph config).value
    run? s config f.focus direction bound start interrupt =
        some (Walk.toward f direction bound start interrupt) ∧
      (Walk.run f direction bound start interrupt).run.value =
        (Walk.toward f direction bound start interrupt).mapError .interrupted
  /-- A walk that starts at no node finds nothing, and cannot be reported. -/
  unreported : ∀ config direction bound start interrupt, s.graph.contains start = false →
    let f := (Filter.bind s.graph config).value
    Walk.toward f direction bound start interrupt = .ok .empty ∧
      run? s config f.focus direction bound start interrupt = none ∧
      (Walk.run f direction bound start interrupt).run.value = .error .noSuchStart
  /-- Selections, with whatever depth map. -/
  selected : ∀ config depth interrupt,
    let f := (Filter.bind s.graph config).value
    selectWhole? s config f.focus depth interrupt =
      some (selectWhole s.graph f depth interrupt).run.value
  /-- Stripping, if the declared roots are nodes. -/
  stripped : (∀ r ∈ s.roots, s.graph.contains r = true) →
    strip? s = some s.strip ∧ s.strip.graph = s.graph.withoutSynthetic
  unstripped : (∃ r ∈ s.roots, s.graph.contains r = false) → strip? s = none
  /-- Texts of whatever has been selected, in every format. -/
  rendered : ∀ flow, Flow.Obtained s.graph flow → ∀ format grouping,
    render? s flow format grouping = some (renderFlow s.graph flow format grouping)

theorem inRange_of_sound (sound : s.Sound) : InRange s := by
  have linked := sound.linked
  have bind := fun config => Filter.graph_bind s.graph config
  have configs := fun config => Filter.config_bind s.graph config
  have inside : ∀ {v}, s.graph.contains v = true ↔ v < s.slots.size := by
    intro v
    rw [Graph.contains, s.size_graph, decide_eq_true_iff]
  refine ⟨measure?_eq linked, fun measured => ?_, fun config direction bound start interrupt => ?_,
    fun config direction bound start interrupt known => ?_,
    fun config direction bound start interrupt unknown => ?_, fun config depth interrupt => ?_,
    fun roots => ?_, fun misdeclared => ?_,
    fun flow obtained => render?_eq linked obtained.of⟩
  · exact ⟨fun v => depth_of_outside measured, fun e => not_admits_of_outside measured⟩
  · have walked := toward?_eq linked _ (bind config) direction bound start interrupt
    rwa [configs] at walked
  · have reported := run?_eq linked _ (bind config) direction bound start interrupt
    rw [configs, if_pos (inside.1 known)] at reported
    refine ⟨reported, ?_⟩
    rw [Walk.value_run_eq, bind, known]
    cases Walk.toward (Filter.bind s.graph config).value direction bound start interrupt <;> rfl
  · have reported := run?_eq linked _ (bind config) direction bound start interrupt
    have outside : ¬ start < s.slots.size := fun here => by
      rw [inside.2 here] at unknown
      cases unknown
    have found : Walk.toward (Filter.bind s.graph config).value direction bound start interrupt =
        .ok .empty := Walk.toward_of_unknown (by rw [bind, unknown])
    rw [configs, if_neg outside] at reported
    refine ⟨found, reported, ?_⟩
    rw [Walk.value_run_eq, found, bind, unknown]
    rfl
  · have selected := selectWhole?_eq linked _ (bind config) depth interrupt
    rwa [configs] at selected
  · have inStep := sound.inStep_of_roots fun r declared => inside.1 (roots r declared)
    exact ⟨strip?_eq inStep, (Store.inStep_strip inStep).2⟩
  · obtain ⟨r, declared, outside⟩ := misdeclared
    refine strip?_eq_none declared (Nat.le_of_not_lt fun here => ?_)
    rw [inside.2 here] at outside
    cases outside

/-- **Queries about whatever has been built stay in range**, but for reports of walks that start at no
node, and for stripping if a root has been declared that is none. -/
theorem inRange_of_built {ops : List Operation} {s : Store} (built : ops.foldlM perform? {} = some s) :
    InRange s :=
  inRange_of_sound (sound_of_built Store.inStep_empty.sound built)

theorem inRange_of_built_growing :
    Store.growing.foldlM perform? {} = some (Store.growing.foldl Store.perform {}) ∧
      InRange (Store.growing.foldl Store.perform {}) := by
  have fit : Operation.AllFit (Store.graph {}) Store.growing := by
    rw [Store.graph_empty]
    decide +kernel
  have built := built_of_allFit Store.inStep_empty fit
  exact ⟨built, inRange_of_built built⟩

/-- One function, and a root that is declared by a number that no node has. -/
def misdeclared : List Operation :=
  [.addNode { id := "app::main", name := "main" }, .declareRoot 1]

/-- A walk that starts there finds the empty flow in every direction, but has no report, and nothing can
be stripped. -/
theorem walk_from_nowhere_is_unreported : ∃ s, misdeclared.foldlM perform? {} = some s ∧
    s.graph.contains 1 = false ∧ strip? s = none ∧ ∀ direction,
      let f := (Filter.bind s.graph {}).value
      Walk.toward f direction 0 1 .none = .ok .empty ∧
        run? s {} f.focus direction 0 1 .none = none ∧
        (Walk.run f direction 0 1 .none).run.value = .error .noSuchStart := by
  obtain ⟨s, built⟩ : ∃ s, misdeclared.foldlM perform? {} = some s := ⟨_, rfl⟩
  have inRange := inRange_of_sound (sound_of_built Store.inStep_empty.sound built)
  have outside : s.graph.contains 1 = false ∧ 1 ∈ s.roots := by
    rw [← Option.some.inj built]
    decide +kernel
  exact ⟨s, built, outside.1, inRange.unstripped ⟨1, outside.2, outside.1⟩,
    fun direction => inRange.unreported {} direction 0 1 .none outside.1⟩

end Access

end CallGraph
