import CallGraph.Proofs.Listing
import CallGraph.Proofs.Walk
import CallGraph.Proofs.Writing
import CallGraph.Selection

/-!
**The texts of a flow show it, all of it and nothing else.**

The theory of `renderFlow`. Both drawings and the document of a flow show the nodes and pairs that it
has; how its graph was built does not show.

* `renderFlow_drawing_congr`, `renderFlow_congr` — flows that join or show the same are the same text;
* `Flow.Obtained` — the flows that queries select, `Obtained.of` — they are flows of their graph;
* `Drawn`, `Listed` — what it is to show a flow;
* `renders_faithfully` — the texts of a flow do.
-/

namespace CallGraph

open Diagram CallGraph.Flow CallGraph.Graph

/-- Flows that join the same have equally many nodes and pairs, and the same drawings. -/
theorem renderFlow_drawing_congr {g g' : Graph} {f f' : Flow} (of : f.Of g) (wf : g.WellFormed)
    (of' : f'.Of g') (wf' : g'.WellFormed) (same : ∀ n m, f.Joins g n m ↔ f'.Joins g' n m) :
    (f.nodeCount = f'.nodeCount ∧ f.edgeCount = f'.edgeCount) ∧ ∀ format grouping,
      format ≠ .json → renderFlow g f format grouping = renderFlow g' f' format grouping := by
  refine ⟨?_, fun format grouping drawing => ?_⟩
  · obtain ⟨sameParts, sameArcs⟩ := parts_arcs_congr of wf of' wf' same .flat
    have nodes := map_fst_declared_parts of wf .flat
    rw [sameParts, map_fst_declared_parts of' wf' .flat] at nodes
    have lengths := congrArg List.length nodes
    rw [List.length_range', List.length_range'] at lengths
    refine ⟨lengths.symm, ?_⟩
    rw [← length_arcs (g := g) .flat, sameArcs, length_arcs]
  · obtain ⟨sameParts, sameArcs⟩ := parts_arcs_congr of wf of' wf' same grouping
    cases format with
    | json => exact absurd rfl drawing
    | mermaid =>
      show Mermaid.render g f grouping = Mermaid.render g' f' grouping
      rw [Mermaid.render, mermaid_lines_eq of wf, sameParts, sameArcs, ← mermaid_lines_eq of' wf',
        Mermaid.render]
    | dot =>
      show Dot.render g f grouping = Dot.render g' f' grouping
      rw [Dot.render, dot_lines_eq of wf, sameParts, sameArcs, ← dot_lines_eq of' wf', Dot.render]

/-- Flows that show the same are the same in every format. -/
theorem renderFlow_congr {g g' : Graph} {f f' : Flow} (of : f.Of g) (wf : g.WellFormed)
    (of' : f'.Of g') (wf' : g'.WellFormed)
    (same : ∀ n m call, f.Shows g n m call ↔ f'.Shows g' n m call) :
    (f.nodeCount = f'.nodeCount ∧ f.edgeCount = f'.edgeCount) ∧
      ∀ format grouping, renderFlow g f format grouping = renderFlow g' f' format grouping := by
  have joins : ∀ n m, f.Joins g n m ↔ f'.Joins g' n m := by
    intro n m
    rw [of.joins_iff_exists_shows, of'.joins_iff_exists_shows]
    exact exists_congr (same n m)
  obtain ⟨counts, drawings⟩ := renderFlow_drawing_congr of wf of' wf' joins
  refine ⟨counts, fun format grouping => ?_⟩
  by_cases document : format = .json
  · rw [document]
    show (Document.ofSelection g f).toText = (Document.ofSelection g' f').toText
    rw [Document.ofSelection_congr of wf of' wf' same]
  · exact drawings format grouping document

/-! ### The flows that queries select -/

namespace Flow

/-- **A flow that has been obtained from a graph**: by adding its edges, by uniting two such flows,
by selecting from the whole of it, or by a walk. -/
inductive Obtained (g : Graph) : Flow → Prop
  | empty : Obtained g .empty
  | insert {f : Flow} {e : Edge} {i : Nat} :
    Obtained g f → g.edges[i]? = some e → Obtained g (f.insert (e, i))
  | union {f f' : Flow} : Obtained g f → Obtained g f' → Obtained g (f.union f')
  | selectWhole {filter : Filter} {depth : Option DepthMap} {interrupt : Interrupt} {f : Flow} :
    (CallGraph.selectWhole g filter depth interrupt).run.value = .ok f → Obtained g f
  | walk {filter : Filter} {direction : Direction} {bound start : Nat} {interrupt : Interrupt}
      {f : Flow} :
    filter.graph = g → Walk.toward filter direction bound start interrupt = .ok f → Obtained g f

/-- A flow holds edges of a graph. -/
def HoldsOf (g : Graph) (f : Flow) : Prop :=
  ∃ edges : Nat → Nat → Set Nat, f.Holds edges ∧ ∀ u v i, i ∈ edges u v →
    ∃ e, g.edges[i]? = some e ∧ e.caller = u ∧ e.callee = v

variable {g : Graph}

theorem holdsOf_empty : HoldsOf g .empty :=
  ⟨_, holds_empty, fun _ _ _ here => absurd here (Set.notMem_empty _)⟩

theorem holdsOf_ofEdges {es : List (Edge × Nat)} (inGraph : ∀ e ∈ es, g.edges[e.2]? = some e.1) :
    HoldsOf g (ofEdges es) := by
  refine ⟨_, holds_ofEdges es, fun u v i here => ?_⟩
  obtain ⟨e, listed, caller, callee⟩ := here
  exact ⟨e, inGraph _ listed, caller, callee⟩

theorem HoldsOf.union {f f' : Flow} (left : HoldsOf g f) (right : HoldsOf g f') :
    HoldsOf g (f.union f') := by
  obtain ⟨edges, holds, inGraph⟩ := left
  obtain ⟨edges', holds', inGraph'⟩ := right
  exact ⟨_, holds_union holds holds', fun u v i here => here.elim (inGraph u v i) (inGraph' u v i)⟩

theorem holdsOf_along {filter : Filter} {forward : Bool} {bound start : Nat} {interrupt : Interrupt}
    {f : Flow} (found : Walk.along filter forward bound start interrupt = .ok f) :
    HoldsOf filter.graph f := by
  unfold Walk.along at found
  split at found
  · split at found
    · cases found
    · cases found
      refine holdsOf_ofEdges fun e here => ?_
      exact (Filter.mem_passing.1 (Walk.mem_found.1 here).1).1
  · cases found
    exact holdsOf_empty

/-- **Whatever has been obtained from a graph holds edges of it.** -/
theorem Obtained.holdsOf {f : Flow} (obtained : Obtained g f) : HoldsOf g f := by
  induction obtained with
  | empty => exact holdsOf_empty
  | @insert f e i _ listed hyp =>
    obtain ⟨edges, holds, inGraph⟩ := hyp
    refine ⟨_, holds_insertLink holds _, fun u v j here => ?_⟩
    rcases here with same | old
    · cases same
      exact ⟨e, listed, rfl, rfl⟩
    · exact inGraph u v j old
  | union _ _ left right => exact left.union right
  | @selectWhole filter depth interrupt f found =>
    rw [value_selectWhole] at found
    split at found
    · cases found
    · cases found
      refine holdsOf_ofEdges fun e here => ?_
      have listed := (List.mem_filter.1 (List.mem_filter.1 here).1).1
      rw [← Array.getElem?_toList]
      exact List.mem_zipIdx_iff_getElem?.1 listed
  | @walk filter direction bound start interrupt f same found =>
    subst same
    cases direction with
    | callees => exact holdsOf_along found
    | callers => exact holdsOf_along found
    | both =>
      obtain ⟨below, down, found⟩ := exists_of_bind_eq_ok found
      obtain ⟨above, up, found⟩ := exists_of_bind_eq_ok found
      cases found
      exact (holdsOf_along down).union (holdsOf_along up)

theorem Obtained.of {f : Flow} (obtained : Obtained g f) : f.Of g := by
  obtain ⟨_, holds, inGraph⟩ := obtained.holdsOf
  exact holds.of inGraph

end Flow

/-! ### What the texts of a flow say -/

/-- **Declarations and arcs that show a flow, all of it and nothing else.** -/
structure Drawn (g : Graph) (f : Flow) (grouping : Grouping) (parts : List Part)
    (arcs : List (Nat × Nat)) : Prop where
  /-- Every node is declared once. -/
  nodes : ((declared parts).map (·.2)).Perm (f.nodes.filterMap g.node?)
  /-- Nodes and groups are numbered from one on, as they come up. -/
  numbers : (declared parts).map (·.1) = List.range' 1 f.nodeCount
  groups : opened parts = List.range' 1 (opened parts).length
  arranged : Arranged (levels grouping) parts
  /-- Every pair has one arc. -/
  increasing : Increasing arcOrder arcs
  count : arcs.length = f.edgeCount
  /-- An arc joins declared nodes, and these are a pair of the flow. -/
  joins : ∀ i j, (i, j) ∈ arcs ↔ ∃ u v n m, f.containsEdge u v = true ∧ g.node? u = some n ∧
    g.node? v = some m ∧ (i, n) ∈ declared parts ∧ (j, m) ∈ declared parts

/-- **A document that lists a flow, all of it and nothing else**, in the order of the ids. -/
structure Listed (g : Graph) (f : Flow) (d : Document) : Prop where
  nodes : d.nodes.Perm ((f.nodes.filterMap g.node?).map NodeRecord.ofNode)
  byId : d.nodes.Pairwise fun a b => a.id < b.id
  byIds : d.edges.Pairwise fun a b => a.caller < b.caller ∨ a.caller = b.caller ∧ a.callee < b.callee
  joins : ∀ a b, (∃ r ∈ d.edges, r.caller = a ∧ r.callee = b) ↔
    ∃ u v, f.containsEdge u v = true ∧ g.idOf u = a ∧ g.idOf v = b
  counts : d.nodes.length = f.nodeCount ∧ d.edges.length = f.edgeCount

section

variable {g : Graph} {f : Flow} (of : f.Of g) (wf : g.WellFormed)

include of wf

theorem drawn_parts (grouping : Grouping) :
    Drawn g f grouping (parts g f grouping) (arcs g f grouping) := by
  obtain ⟨k, numbered⟩ := numbered_layout of wf grouping
  refine ⟨?_, map_fst_declared_parts of wf grouping, numbered.opened_eq.1,
    arranged_arrange _ 0 0 (increasing_sortedNodes wf), increasing_arcs of wf grouping,
    length_arcs grouping, fun i j => ?_⟩
  · refine (perm_declared_arrange _ 0 0 _).trans ?_
    refine (List.perm_ext_iff_of_nodup (increasing_sortedNodes wf).nodup ?_).2 fun n => ?_
    · exact (pairwise_id_ne wf f).imp fun differ same => differ (congrArg Node.id same)
    · rw [mem_map_sortedNodes, List.mem_filterMap]
      rfl
  · rw [mem_arcs of wf]
    simp only [joins_iff]
    constructor
    · rintro ⟨n, m, ⟨u, v, joined, atU, atV⟩, ends⟩
      exact ⟨u, v, n, m, joined, atU, atV, ends⟩
    · rintro ⟨u, v, n, m, joined, atU, atV, ends⟩
      exact ⟨n, m, ⟨u, v, joined, atU, atV⟩, ends⟩

theorem listed_ofSelection : Listed g f (Document.ofSelection g f) := by
  refine ⟨List.mergeSort_perm _ _, ?_, ?_, fun a b => ?_,
    Document.length_nodes_ofSelection of wf, Document.length_edges_ofSelection of⟩
  · exact (Document.increasing_nodes_ofSelection wf).imp compare_lt_iff_lt.1
  · apply (Document.increasing_edges_ofSelection of wf).imp
    intro r s less
    rcases Ordering.then_eq_lt.1 less with callers | ⟨callers, callees⟩
    · exact Or.inl (compare_lt_iff_lt.1 callers)
    · exact Or.inr ⟨Std.LawfulEqOrd.eq_of_compare callers, compare_lt_iff_lt.1 callees⟩
  · simp only [Document.mem_edges_ofSelection of wf]
    constructor
    · rintro ⟨_, ⟨n, m, call, shown, rfl⟩, rfl, rfl⟩
      obtain ⟨u, v, joined, atU, atV⟩ := joins_iff.1 (of.joins_iff_exists_shows.2 ⟨call, shown⟩)
      exact ⟨u, v, joined, idOf_of_node? atU, idOf_of_node? atV⟩
    · rintro ⟨u, v, joined, rfl, rfl⟩
      obtain ⟨i, here⟩ := containsEdge_iff.1 joined
      obtain ⟨n, m, atU, atV⟩ := of.exists_nodes wf here
      obtain ⟨call, shown⟩ := of.joins_iff_exists_shows.1 ⟨_, here, atU, atV⟩
      exact ⟨_, ⟨n, m, call, shown, rfl⟩, (idOf_of_node? atU).symm, (idOf_of_node? atV).symm⟩

end

/-- **A flow is drawn and listed faithfully.** Both drawings declare its nodes, numbered and grouped,
and join its pairs: the ids on their lines are those of the declarations and the arcs. The document that
is written of it lists the same. -/
theorem renders_faithfully {g : Graph} (wf : g.WellFormed) {f : Flow} (obtained : Obtained g f)
    (grouping : Grouping) :
    (∃ parts arcs, Drawn g f grouping parts arcs ∧
      (∃ lines, renderFlow g f .mermaid grouping = "\n".intercalate lines ++ "\n" ∧
        Mermaid.Spells parts arcs lines ∧
        Reads " --> " "" lines ((declared parts).map (·.1)) arcs) ∧
      ∃ lines, renderFlow g f .dot grouping = "\n".intercalate lines ++ "\n" ∧
        Dot.Spells parts arcs lines ∧
        Reads " -> " ";" lines ((declared parts).map (·.1)) arcs) ∧
    ∃ d, Document.ofText (renderFlow g f .json grouping) = .ok d ∧ Listed g f d := by
  have of := obtained.of
  have mermaid : Mermaid.Spells (parts g f grouping) (arcs g f grouping) (Mermaid.lines g f grouping) := by
    rw [mermaid_lines_eq of wf]
    exact .intro (Mermaid.written_partsLines _)
  have dot : Dot.Spells (parts g f grouping) (arcs g f grouping) (Dot.lines g f grouping) := by
    rw [dot_lines_eq of wf]
    exact .intro (Dot.written_partsLines _ 1)
  exact ⟨⟨parts g f grouping, arcs g f grouping, drawn_parts of wf grouping,
      ⟨_, rfl, mermaid, mermaid.reads⟩, _, rfl, dot, dot.reads⟩,
    Document.ofSelection g f, Document.ofText_ofSelection of wf, listed_ofSelection of wf⟩

/-- A server that a program starts, twice, and a callback of no known module. -/
def startsServer : Graph where
  nodes := #[{ id := "app::main", name := "main", modulePath := some "app" },
    { id := "app::net::Server::start", name := "start", modulePath := some "app::net",
      location := some ⟨"src/net.rs", 7⟩, receiver := some "Server" },
    { id := "callback", name := "callback", receiver := some "" }]
  edges := #[⟨0, 1, { site := some ⟨"src/main.rs", 3⟩ }⟩, ⟨0, 1, {}⟩, ⟨1, 2, {}⟩, ⟨1, 1, {}⟩]

theorem wellFormed_startsServer : startsServer.WellFormed := by decide +kernel

/-- What is selected from it, and a call that no filter passes. -/
def serverCalls : Flow where
  links := [⟨0, 1, 0⟩, ⟨1, 1, 3⟩, ⟨1, 2, 2⟩]

theorem obtained_serverCalls : Obtained startsServer serverCalls := by
  have run : (selectWhole startsServer ⟨startsServer, {}, none⟩ none .none).run.value =
      .ok ⟨[⟨0, 1, 0⟩, ⟨1, 1, 3⟩]⟩ := by decide +kernel
  have added : Obtained startsServer (Flow.empty.insert (⟨1, 2, {}⟩, 2)) := .insert .empty rfl
  exact .union (.selectWhole run) added

theorem renders_faithfully_startsServer :
    startsServer.WellFormed ∧ Obtained startsServer serverCalls ∧
    (∃ parts arcs, Drawn startsServer serverCalls .byModuleAndType parts arcs ∧
      (∃ lines, renderFlow startsServer serverCalls .mermaid .byModuleAndType =
          "\n".intercalate lines ++ "\n" ∧ Mermaid.Spells parts arcs lines ∧
        Reads " --> " "" lines ((declared parts).map (·.1)) arcs) ∧
      ∃ lines, renderFlow startsServer serverCalls .dot .byModuleAndType =
          "\n".intercalate lines ++ "\n" ∧ Dot.Spells parts arcs lines ∧
        Reads " -> " ";" lines ((declared parts).map (·.1)) arcs) ∧
    ∃ d, Document.ofText (renderFlow startsServer serverCalls .json .byModuleAndType) = .ok d ∧
      Listed startsServer serverCalls d :=
  ⟨wellFormed_startsServer, obtained_serverCalls,
    renders_faithfully wellFormed_startsServer obtained_serverCalls .byModuleAndType⟩

end CallGraph
