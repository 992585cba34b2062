import CallGraph.Proofs.Built

/-!
**Graphs as documents, and back.**

A document lists the calls of a graph caller by caller. A graph that is read from it has the same
nodes under the same numbers, and the calls of each node in the same order, so it is written as the
same text. Whatever a text says, it is in this form once it has been read and written.

* `record_keeps`, `linesFit_of_ofText` — what is read from a text has lines that can be written;
* `Graph.regrouped`, `toGraph_ofGraph` — what is read from the document of a graph;
* `edgesFrom_regrouped`, `ofGraph_regrouped` — it is told from the graph neither by the calls of a
  node nor by its document;
* `Document.normal`, `round_trip` — documents in normal form.
-/

namespace CallGraph

/-! ### What a text can say -/

namespace Json

variable {σ α : Type} {P : σ → Prop} {d : Decoder α} {set : σ → α → σ} {name : String}

/-- Reading a field keeps a property of records. -/
def RecordField.Keeps (field : RecordField σ) (P : σ → Prop) : Prop :=
  ∀ s f s', P s → field.store s f = .ok s' → P s'

theorem keeps_maybe (kept : ∀ s f x, d f = .ok x → P s → P (set s x)) :
    (RecordField.maybe name d set).Keeps P := by
  intro s f s' here stored
  obtain ⟨x, read, rfl⟩ := exists_of_map_eq_ok stored
  exact kept s f x read here

theorem keeps_must (kept : ∀ s f x, d f = .ok x → P s → P (set s x)) :
    (RecordField.must name d set).Keeps P := by
  show (RecordField.maybe name d set).Keeps P
  exact keeps_maybe kept

variable {fields : List (RecordField σ)} {closed : Bool}

theorem readMembers_keeps (kept : ∀ field ∈ fields, field.Keeps P) {seen : List String} {s s' : σ}
    {members : List (Option String × Fragment)} (here : P s)
    (read : readMembers fields closed seen s members = .ok s') : P s' := by
  induction members generalizing seen s with
  | nil =>
    unfold readMembers at read
    split at read
    · cases read
    split at read
    · cases read
    · exact Except.ok.inj read ▸ here
  | cons m rest hyp =>
    obtain ⟨_ | key, f⟩ := m
    · cases read
    unfold readMembers at read
    split at read
    · obtain ⟨_, _, later⟩ := exists_of_bind_eq_ok read
      exact hyp here later
    · rename_i field known
      split at read
      · cases read
      · obtain ⟨t, stored, later⟩ := exists_of_bind_eq_ok read
        exact hyp (kept field (List.mem_of_find?_eq_some known) s f t here stored) later

theorem readInOrder_keeps (kept : ∀ field ∈ fields, field.Keeps P) {s s' : σ}
    {items : List Fragment} (here : P s) (read : readInOrder closed s fields items = .ok s') :
    P s' := by
  induction items generalizing fields s with
  | nil =>
    cases fields with
    | nil =>
      unfold readInOrder at read
      split at read
      · exact Except.ok.inj read ▸ here
      · cases read
    | cons field fields =>
      unfold readInOrder at read
      split at read
      · cases read
      split at read
      · cases read
      · exact Except.ok.inj read ▸ here
  | cons f rest hyp =>
    cases fields with
    | nil => cases read
    | cons field fields =>
      obtain ⟨t, stored, later⟩ := exists_of_bind_eq_ok read
      obtain ⟨first, others⟩ := List.forall_mem_cons.1 kept
      exact hyp others (first s f t here stored) later

/-- **What every field keeps holds of a record that is read**, if it holds of the defaults. -/
theorem record_keeps (kept : ∀ field ∈ fields, field.Keeps P) {defaults s : σ} {f : Fragment}
    (here : P defaults) (read : record fields defaults f = .ok s) : P s := by
  unfold record at read
  split at read
  · exact readMembers_keeps kept here read
  · exact readInOrder_keeps kept here read
  · cases read

theorem exists_of_mapM {fs : List Fragment} {as : List α} (read : fs.mapM d = .ok as) :
    ∀ a ∈ as, ∃ f, d f = .ok a := by
  induction fs generalizing as with
  | nil =>
    cases read
    exact fun a here => absurd here List.not_mem_nil
  | cons f rest hyp =>
    rw [List.mapM_cons] at read
    obtain ⟨a, first, read⟩ := exists_of_bind_eq_ok read
    obtain ⟨others, later, read⟩ := exists_of_bind_eq_ok read
    cases read
    exact List.forall_mem_cons.2 ⟨⟨f, first⟩, hyp later⟩

theorem exists_of_list {f : Fragment} {as : List α} (read : list d f = .ok as) :
    ∀ a ∈ as, ∃ f, d f = .ok a := by
  unfold list at read
  split at read
  · obtain ⟨bs, items, read⟩ := exists_of_bind_eq_ok read
    split at read
    · cases read
      exact exists_of_mapM items
    · cases read
  · cases read

theorem le_of_natural {bound n : Nat} {f : Fragment} (read : natural bound f = .ok n) :
    n ≤ bound := by
  unfold natural at read
  split at read
  · split at read
    · rename_i fits
      exact Except.ok.inj read ▸ fits
    · cases read
  · cases read

theorem le_of_optional_natural {bound : Nat} {f : Fragment} {o : Option Nat}
    (read : optional (natural bound) f = .ok o) : ∀ n, o = some n → n ≤ bound := by
  rintro n rfl
  unfold optional at read
  split at read
  · cases read
  · obtain ⟨m, number, same⟩ := exists_of_map_eq_ok read
    exact Option.some.inj same ▸ le_of_natural number

theorem exists_of_readText {text : String} {a : α} (read : readText d text = .ok a) :
    ∃ f, d f = .ok a := by
  obtain ⟨b, here, read⟩ := exists_of_bind_eq_ok read
  split at read
  · cases read
    exact ⟨_, here⟩
  · cases read

end Json

open Json

theorem NodeRecord.line_le_of_decode {f : Fragment} {r : NodeRecord} (read : decode f = .ok r) :
    ∀ l, r.line = some l → l ≤ maxLine := by
  refine record_keeps (P := fun r : NodeRecord => ∀ l, r.line = some l → l ≤ maxLine) ?_ ?_ read
  · unfold fields
    simp only [List.forall_mem_cons, List.not_mem_nil, false_implies, implies_true, and_true]
    exact ⟨keeps_must fun _ _ _ _ h => h, keeps_must fun _ _ _ _ h => h,
      keeps_maybe fun _ _ _ _ h => h, keeps_maybe fun _ _ _ _ h => h,
      keeps_maybe fun _ _ _ _ h => h, keeps_maybe fun _ _ _ read _ => le_of_optional_natural read,
      keeps_maybe fun _ _ _ _ h => h, keeps_maybe fun _ _ _ _ h => h,
      keeps_maybe fun _ _ _ _ h => h, keeps_maybe fun _ _ _ _ h => h⟩
  · exact fun l given => nomatch given

theorem EdgeRecord.line_le_of_decode {f : Fragment} {r : EdgeRecord} (read : decode f = .ok r) :
    ∀ l, r.line = some l → l ≤ maxLine := by
  refine record_keeps (P := fun r : EdgeRecord => ∀ l, r.line = some l → l ≤ maxLine) ?_ ?_ read
  · unfold fields
    simp only [List.forall_mem_cons, List.not_mem_nil, false_implies, implies_true, and_true]
    exact ⟨keeps_must fun _ _ _ _ h => h, keeps_must fun _ _ _ _ h => h,
      keeps_maybe fun _ _ _ _ h => h, keeps_maybe fun _ _ _ read _ => le_of_optional_natural read,
      keeps_maybe fun _ _ _ _ h => h⟩
  · exact fun l given => nomatch given

namespace Document

/-- **The lines of a document that is read can be written.** -/
theorem linesFit_of_ofText {text : String} {d : Document} (read : ofText text = .ok d) :
    d.LinesFit := by
  obtain ⟨f, read⟩ := exists_of_readText read
  refine record_keeps (P := LinesFit) ?_ ?_ read
  · unfold fields
    simp only [List.forall_mem_cons, List.not_mem_nil, false_implies, implies_true, and_true]
    refine ⟨keeps_maybe fun d f rs read fits => ?_, keeps_maybe fun d f rs read fits => ?_,
      keeps_maybe fun _ _ _ _ fits => ⟨fits.nodes, fits.edges⟩⟩
    · refine ⟨fun r here => ?_, fits.edges⟩
      obtain ⟨f, read⟩ := exists_of_list read r here
      exact NodeRecord.line_le_of_decode read
    · refine ⟨fits.nodes, fun r here => ?_⟩
      obtain ⟨f, read⟩ := exists_of_list read r here
      exact EdgeRecord.line_le_of_decode read
  · exact ⟨fun r here => absurd here List.not_mem_nil, fun r here => absurd here List.not_mem_nil⟩

end Document

/-! ### Calls, caller by caller -/

namespace Graph

variable {g : Graph}

/-- The edges that leave a node, in order. -/
def edgesFrom (g : Graph) (v : Nat) : List Edge :=
  g.edges.toList.filter (·.caller == v)

theorem mem_edgesFrom {v : Nat} {e : Edge} : e ∈ g.edgesFrom v ↔ e ∈ g.edges ∧ e.caller = v := by
  rw [edgesFrom, List.mem_filter, Array.mem_toList_iff, beq_iff_eq]

/-- The edges in the order in which a document lists them: by caller, and then as they are. -/
def regrouped (g : Graph) : Graph :=
  { g with edges := (g.nodeNumbers.flatMap g.edgesFrom).toArray }

theorem flatMap_ite_eq {vs : List Nat} (distinct : vs.Nodup) {v : Nat} (es : List Edge) :
    (vs.flatMap fun u => if u = v then es else []) = if v ∈ vs then es else [] := by
  induction vs with
  | nil => rfl
  | cons u rest hyp =>
    obtain ⟨new, later⟩ := List.nodup_cons.1 distinct
    rw [List.flatMap_cons, hyp later]
    by_cases here : u = v
    · subst here
      rw [if_pos rfl, if_neg new, if_pos List.mem_cons_self, List.append_nil]
    · rw [if_neg here, List.nil_append]
      simp [Ne.symm here]

/-- **Each node keeps its calls, in their order.** -/
theorem edgesFrom_regrouped (wf : g.WellFormed) (v : Nat) :
    g.regrouped.edgesFrom v = g.edgesFrom v := by
  -- Of all the groups, only that of the node itself has edges that leave it.
  have atCaller : ∀ u, (g.edgesFrom u).filter (·.caller == v) =
      if u = v then g.edgesFrom v else [] := by
    intro u
    split
    · rename_i same
      subst same
      rw [edgesFrom, List.filter_filter]
      simp
    · rename_i different
      refine List.filter_eq_nil_iff.2 fun e here same => different ?_
      exact (mem_edgesFrom.1 here).2.symm.trans (eq_of_beq same)
  show (g.nodeNumbers.flatMap g.edgesFrom).filter (·.caller == v) = _
  rw [List.filter_flatMap]
  simp only [atCaller]
  rw [nodeNumbers, flatMap_ite_eq List.nodup_range]
  split
  · rfl
  · -- A number beyond the nodes has no group, but no edge leaves it either.
    rename_i beyond
    refine (List.eq_nil_iff_forall_not_mem.2 fun e here => beyond ?_).symm
    obtain ⟨listed, rfl⟩ := mem_edgesFrom.1 here
    exact List.mem_range.2 (wf.ends e listed).1

end Graph

namespace Document

open CallGraph.Graph

variable {g h : Graph}

theorem ofGraph_eq (g : Graph) : ofGraph g = {
    nodes := g.nodes.toList.map NodeRecord.ofNode
    edges := (g.nodeNumbers.flatMap g.edgesFrom).map (EdgeRecord.ofEdge g)
    roots := g.roots.map g.idOf } := by
  unfold ofGraph
  rw [List.map_flatMap]
  refine congrArg (Document.mk _ · _) (List.flatMap_congr fun v _ => ?_)
  show (g.outgoing v).map (EdgeRecord.ofEdge g ∘ (·.1)) = _
  rw [← List.map_map, map_outgoing]
  rfl

/-- **The regrouped graph is written as the same document.** -/
theorem ofGraph_regrouped (wf : g.WellFormed) : ofGraph g.regrouped = ofGraph g := by
  rw [ofGraph_eq, ofGraph_eq]
  have edges : g.regrouped.edgesFrom = g.edgesFrom := funext (edgesFrom_regrouped wf)
  rw [edges]
  rfl

theorem find?_idOf (distinct : g.ids.Nodup) (same : h.nodes = g.nodes) {v : Nat}
    (inRange : v < g.nodes.size) : h.find? (g.idOf v) = some v := by
  unfold find?
  rw [same]
  exact (find?_eq_some_iff distinct).2 ⟨inRange, rfl⟩

theorem addNodes_ofNode (distinct : g.ids.Nodup) :
    addNodes Graph.empty (g.nodes.toList.map NodeRecord.ofNode) = ⟨{ nodes := g.nodes }, []⟩ := by
  have ids : (g.nodes.toList.map NodeRecord.ofNode).map (·.id) = g.ids := List.map_map
  have back : (g.nodes.toList.map NodeRecord.ofNode).map NodeRecord.toNode = g.nodes.toList := by
    rw [List.map_map]
    exact (List.map_congr_left fun n _ => NodeRecord.toNode_ofNode n).trans (List.map_id _)
  have new : (Graph.empty.ids ++ (g.nodes.toList.map NodeRecord.ofNode).map (·.id)).Nodup := by
    rw [ids]
    exact distinct
  rw [addNodes_of_new new, back]
  simp [Graph.empty]

/-- The edges of a graph are added to one with the same nodes as they are. -/
theorem addEdges_ofEdge (distinct : g.ids.Nodup) {es : List Edge}
    (ends : ∀ e ∈ es, e.caller < g.nodes.size ∧ e.callee < g.nodes.size) (same : h.nodes = g.nodes) :
    addEdges h (es.map (EdgeRecord.ofEdge g)) = ⟨{ h with edges := h.edges ++ es.toArray }, []⟩ := by
  induction es generalizing h with
  | nil =>
    rw [Array.append_empty]
    rfl
  | cons e rest hyp =>
    obtain ⟨⟨left, right⟩, later⟩ := List.forall_mem_cons.1 ends
    have added : h.connect (EdgeRecord.ofEdge g e).caller (EdgeRecord.ofEdge g e).callee
        (EdgeRecord.ofEdge g e).toCall = ⟨h.addEdge e, []⟩ := by
      unfold EdgeRecord.ofEdge
      rw [EdgeRecord.toCall_ofCall]
      exact connect_of_known (find?_idOf distinct same left) (find?_idOf distinct same right)
    show (h.connect _ _ _ >>= fun h => addEdges h (rest.map (EdgeRecord.ofEdge g))) = _
    rw [added]
    show Logged.mk (addEdges (h.addEdge e) _).value ([] ++ (addEdges (h.addEdge e) _).notes) = _
    rw [hyp (h := h.addEdge e) later same]
    simp [addEdge]

theorem addRoots_idOf (distinct : g.ids.Nodup) {rs : List Nat} (inRange : ∀ r ∈ rs, r < g.nodes.size)
    (same : h.nodes = g.nodes) (new : (h.roots ++ rs).Nodup) :
    addRoots h (rs.map g.idOf) = ⟨{ h with roots := h.roots ++ rs }, []⟩ := by
  induction rs generalizing h with
  | nil =>
    rw [List.append_nil]
    rfl
  | cons r rest hyp =>
    obtain ⟨first, later⟩ := List.forall_mem_cons.1 inRange
    have declared : h.declareRoot r = { h with roots := h.roots ++ [r] } :=
      if_neg fun known => List.disjoint_of_nodup_append new known List.mem_cons_self
    rw [List.append_cons] at new
    rw [List.map_cons, addRoots, find?_idOf distinct same first]
    dsimp only
    rw [declared, hyp (h := { h with roots := h.roots ++ [r] }) later same new, ← List.append_cons]

/-- **What is read from the document of a graph** has its nodes, its roots and its calls, and nothing
has to be left out. -/
theorem toGraph_ofGraph (wf : g.WellFormed) (distinct : g.roots.Nodup) :
    (ofGraph g).toGraph = ⟨g.regrouped, []⟩ := by
  -- Nodes come first, so that every id is known by the time the calls and the roots are read.
  have nodes : addNodes Graph.empty (ofGraph g).nodes = ⟨{ nodes := g.nodes }, []⟩ :=
    addNodes_ofNode wf.distinct
  have edges : addEdges { nodes := g.nodes } (ofGraph g).edges =
      ⟨{ g.regrouped with roots := [] }, []⟩ := by
    have ends : ∀ e ∈ g.nodeNumbers.flatMap g.edgesFrom,
        e.caller < g.nodes.size ∧ e.callee < g.nodes.size := by
      intro e here
      obtain ⟨v, _, listed⟩ := List.mem_flatMap.1 here
      exact wf.ends e (mem_edgesFrom.1 listed).1
    rw [ofGraph_eq]
    dsimp only
    rw [addEdges_ofEdge (h := { nodes := g.nodes }) wf.distinct ends rfl]
    simp [regrouped]
  have roots : addRoots { g.regrouped with roots := [] } (ofGraph g).roots = ⟨g.regrouped, []⟩ :=
    addRoots_idOf wf.distinct wf.roots rfl distinct
  show (addNodes Graph.empty (ofGraph g).nodes >>= fun h => addEdges h (ofGraph g).edges >>= fun h =>
    addRoots h (ofGraph g).roots) = _
  rw [nodes]
  show (addEdges { nodes := g.nodes } (ofGraph g).edges >>= fun h =>
    addRoots h (ofGraph g).roots) = _
  rw [edges]
  exact roots

theorem linesFit_ofGraph (wf : g.WellFormed) : (ofGraph g).LinesFit := by
  constructor
  · intro r here l given
    obtain ⟨n, listed, rfl⟩ := List.mem_map.1 here
    obtain ⟨place, located, rfl⟩ := Option.map_eq_some_iff.1 given
    exact wf.nodeLines n (Array.mem_toList_iff.1 listed) place located
  · intro r here l given
    rw [ofGraph_eq] at here
    obtain ⟨e, listed, rfl⟩ := List.mem_map.1 here
    obtain ⟨v, _, listed⟩ := List.mem_flatMap.1 listed
    obtain ⟨place, located, rfl⟩ := Option.map_eq_some_iff.1 given
    exact wf.callLines e (mem_edgesFrom.1 listed).1 place located

/-! ### Normal form -/

/-- What is left of a document once a graph has been made of it. -/
def normal (d : Document) : Document :=
  ofGraph d.toGraph.value

theorem ofText_normal {d : Document} (built : d.toGraph.value.Built) :
    ofText d.normal.toText = .ok d.normal :=
  ofText_toText (linesFit_ofGraph built.wellFormed)

theorem normal_ofGraph (built : g.Built) : (ofGraph g).normal = ofGraph g := by
  rw [normal, toGraph_ofGraph built.wellFormed built.nodup_roots]
  exact ofGraph_regrouped built.wellFormed

/-- **Graphs come back from their documents.** A graph that is built is written, read and built again
with the same nodes under the same numbers, the same roots, and the same calls of every node, each
in the same order; and it is written as the same text. A text that can be read is in normal form
once it has been read and written. -/
theorem round_trip :
    (∀ g : Graph, g.Built → ∃ d, ofText (ofGraph g).toText = .ok d ∧
      (∀ v, d.toGraph.value.node? v = g.node? v) ∧ d.toGraph.value.roots = g.roots ∧
      (∀ v, (d.toGraph.value.outgoing v).map (fun e => (e.1.callee, e.1.call)) =
        (g.outgoing v).map fun e => (e.1.callee, e.1.call)) ∧
      (ofGraph d.toGraph.value).toText = (ofGraph g).toText) ∧
    ∀ text d, ofText text = .ok d →
      ofText d.normal.toText = .ok d.normal ∧ d.normal.normal = d.normal := by
  constructor
  · intro g built
    have wf := built.wellFormed
    refine ⟨ofGraph g, ofText_toText (linesFit_ofGraph wf), ?_⟩
    rw [toGraph_ofGraph wf built.nodup_roots]
    refine ⟨fun v => rfl, rfl, fun v => ?_, congrArg toText (ofGraph_regrouped wf)⟩
    have calls : (g.regrouped.outgoing v).map (·.1) = (g.outgoing v).map (·.1) := by
      rw [map_outgoing, map_outgoing]
      exact edgesFrom_regrouped wf v
    have := congrArg (List.map fun e : Edge => (e.callee, e.call)) calls
    rwa [List.map_map, List.map_map] at this
  · intro text d read
    have built : d.toGraph.value.Built := .merge .empty (linesFit_of_ofText read)
    exact ⟨ofText_normal built, normal_ofGraph built⟩

def entry : Node where
  id := "app::main"
  name := "main"
  modulePath := some "app"
  location := some ⟨"src/main.rs", 0⟩

def quoted : Node where
  id := "läuft \"gut\"\n"
  name := "\\"
  synthetic := true

/-- A graph whose calls are not in the order of their callers, and whose names need quoting. -/
def scribbled : Graph :=
  ((((Graph.empty.addNode entry).value.1.addNode quoted).value.1.addEdge
    ⟨1, 0, { site := some ⟨"", 7⟩ }⟩).addEdge ⟨0, 1, {}⟩).declareRoot 1

theorem built_scribbled : scribbled.Built := by
  unfold scribbled
  refine .declareRoot (.addEdge (.addEdge (.addNode (.addNode .empty ?_) ?_) ?_ ?_) ?_ ?_) ?_
  all_goals decide +kernel

/-- A text that gives a line without a file, and a root twice. -/
def careless : String :=
  "\x7b\"roots\": [\"a\", \"a\"], \"nodes\": [[\"a\", \"b\", null, null, null, 3]]\x7d"

def carelessDocument : Document where
  nodes := [{ id := "a", name := "b", line := some 3 }]
  roots := ["a", "a"]

theorem round_trip_scribbled :
    scribbled.Built ∧
    (∃ d, ofText (ofGraph scribbled).toText = .ok d ∧
      (∀ v, d.toGraph.value.node? v = scribbled.node? v) ∧
      d.toGraph.value.roots = scribbled.roots ∧
      (∀ v, (d.toGraph.value.outgoing v).map (fun e => (e.1.callee, e.1.call)) =
        (scribbled.outgoing v).map fun e => (e.1.callee, e.1.call)) ∧
      (ofGraph d.toGraph.value).toText = (ofGraph scribbled).toText) ∧
    ofText careless = .ok carelessDocument ∧
    ofText carelessDocument.normal.toText = .ok carelessDocument.normal ∧
    carelessDocument.normal.normal = carelessDocument.normal := by
  have read : ofText careless = .ok carelessDocument := by decide +kernel
  exact ⟨built_scribbled, round_trip.1 scribbled built_scribbled, read,
    round_trip.2 careless carelessDocument read⟩

end Document

end CallGraph
