import CallGraph.Builder
import CallGraph.Proofs.RoundTrip

/-!
**Documents are merged in turn.**

An import reads one document after another into a graph. Each brings its nodes before its calls and
roots, so it can say something of what it defines itself and of what the documents before it define.
What it says of an id that only a later document defines is left out, although that id is known in
the end. So an import loses something or not by the order of its documents.

* `Document.callsAmong`, `Document.rootsAmong` — what a document says of known ids;
* `inTurn` — what some documents say, each of the ids that are known in its turn,
  `inTurn_eq_flatMap_iff` — when this is all that they say of the ids of all of them;
* `Merged` — what a graph is after some documents, `Merged.merge` — after one more;
* `Complete`, `LookBack` — nothing is missing from a graph; no document needs a later one;
* `Merged.reordered` — documents that look back in two orders;
* `Builder.importGraph_inTurn` — imports; `importGraph_order_matters` — two documents that lose a call
  and a root in one of their orders.
-/

namespace CallGraph

open CallGraph.Graph

/-! ### What documents say -/

namespace EdgeRecord

/-- A call between two ids. -/
def named (r : EdgeRecord) : String × String × Call :=
  (r.caller, r.callee, r.toCall)

end EdgeRecord

namespace Document

/-- The ids that a document defines. -/
def ids (d : Document) : List String :=
  d.nodes.map (·.id)

/-- The records of a document of calls between known ids. -/
def edgesAmong (known : List String) (d : Document) : List EdgeRecord :=
  d.edges.filter fun r => r.caller ∈ known ∧ r.callee ∈ known

/-- The calls of a document between known ids. -/
def callsAmong (known : List String) (d : Document) : List (String × String × Call) :=
  (d.edgesAmong known).map EdgeRecord.named

/-- The roots of a document that are known ids. -/
def rootsAmong (known : List String) (d : Document) : List String :=
  d.roots.filter (· ∈ known)

variable {known more : List String} {d : Document}

theorem mem_edgesAmong {r : EdgeRecord} :
    r ∈ d.edgesAmong known ↔ r ∈ d.edges ∧ r.caller ∈ known ∧ r.callee ∈ known := by
  rw [edgesAmong, List.mem_filter, decide_eq_true_eq]

theorem mem_rootsAmong {id : String} : id ∈ d.rootsAmong known ↔ id ∈ d.roots ∧ id ∈ known := by
  rw [rootsAmong, List.mem_filter, decide_eq_true_eq]

/-- Of more ids a document says more. -/
theorem edgesAmong_sublist (sub : known ⊆ more) (d : Document) :
    (d.edgesAmong known).Sublist (d.edgesAmong more) := by
  refine List.monotone_filter_right _ fun r ends => ?_
  rw [decide_eq_true_eq] at ends ⊢
  exact ⟨sub ends.1, sub ends.2⟩

/-- It says no more if it uses no other of them. -/
theorem callsAmong_eq_iff (sub : known ⊆ more) (d : Document) :
    d.callsAmong known = d.callsAmong more ↔
      ∀ r ∈ d.edges, r.caller ∈ more ∧ r.callee ∈ more → r.caller ∈ known ∧ r.callee ∈ known := by
  constructor
  · -- The shorter list is a sublist of the longer one, so they are equal if they have one length.
    intro same r here ends
    have lengths := congrArg List.length same
    rw [callsAmong, callsAmong, List.length_map, List.length_map] at lengths
    have kept := mem_edgesAmong.2 ⟨here, ends⟩
    rw [← (edgesAmong_sublist sub d).eq_of_length lengths] at kept
    exact (mem_edgesAmong.1 kept).2
  · intro back
    refine congrArg (List.map EdgeRecord.named) (List.filter_congr fun r here => ?_)
    rw [decide_eq_decide]
    exact ⟨fun ends => ⟨sub ends.1, sub ends.2⟩, back r here⟩

end Document

/-- The ids that some documents define. -/
def definedIds (ds : List Document) : List String :=
  ds.flatMap Document.ids

/-- **The turns of some documents**: each with the ids that are known once its nodes have been read,
which are those of the documents before it and its own. -/
def turns (known : List String) : List Document → List (List String × Document)
  | [] => []
  | d :: rest => (known ++ d.ids, d) :: turns (known ++ d.ids) rest

/-- The calls between ids that are known in the turn of their document. -/
def callsInTurn (known : List String) (ds : List Document) : List (String × String × Call) :=
  (turns known ds).flatMap fun t => t.2.callsAmong t.1

/-- The roots that are known in the turn of their document. -/
def rootsInTurn (known : List String) (ds : List Document) : List String :=
  (turns known ds).flatMap fun t => t.2.rootsAmong t.1

theorem map_turns (known : List String) (ds : List Document) : (turns known ds).map (·.2) = ds := by
  induction ds generalizing known with
  | nil => rfl
  | cons d rest hyp => rw [turns, List.map_cons, hyp]

/-- In its turn a document knows no other ids than those of all documents. -/
theorem subset_of_mem_turns {known : List String} {ds : List Document} {t : List String × Document}
    (here : t ∈ turns known ds) : t.1 ⊆ known ++ definedIds ds := by
  induction ds generalizing known with
  | nil => cases here
  | cons d rest hyp =>
    have ids : known ++ definedIds (d :: rest) = known ++ d.ids ++ definedIds rest := by
      rw [definedIds, List.flatMap_cons, List.append_assoc]
      rfl
    rw [ids]
    rcases List.mem_cons.1 here with rfl | later
    · exact List.subset_append_left _ _
    · exact hyp later

/-- Lists that are put together of parts of others are equal if the parts are. -/
theorem flatMap_eq_flatMap_iff {α β : Type} {l : List α} {f g : α → List β}
    (part : ∀ a ∈ l, (f a).Sublist (g a)) : l.flatMap f = l.flatMap g ↔ ∀ a ∈ l, f a = g a := by
  refine ⟨fun same => ?_, fun same => List.flatMap_congr same⟩
  induction l with
  | nil => exact fun a here => absurd here List.not_mem_nil
  | cons a rest hyp =>
    obtain ⟨first, later⟩ := List.forall_mem_cons.1 part
    have rests : (rest.flatMap f).Sublist (rest.flatMap g) := List.Sublist.flatMap_right rest later
    have lengths := congrArg List.length same
    rw [List.flatMap_cons, List.flatMap_cons, List.length_append, List.length_append] at lengths
    have short := first.length_le
    have shorter := rests.length_le
    refine List.forall_mem_cons.2 ⟨first.eq_of_length (by omega), hyp later ?_⟩
    exact rests.eq_of_length (by omega)

/-- **When no call is lost.** The calls in turn are all the calls between the ids of all documents if
none leads to or from an id that is not known in its turn. -/
theorem callsInTurn_eq_iff (ds : List Document) :
    callsInTurn [] ds = ds.flatMap (Document.callsAmong (definedIds ds)) ↔
      ∀ t ∈ turns [] ds, ∀ r ∈ t.2.edges, r.caller ∈ definedIds ds ∧ r.callee ∈ definedIds ds →
        r.caller ∈ t.1 ∧ r.callee ∈ t.1 := by
  have sub : ∀ t ∈ turns [] ds, t.1 ⊆ definedIds ds := fun t here => subset_of_mem_turns here
  have all : ds.flatMap (Document.callsAmong (definedIds ds)) =
      (turns [] ds).flatMap fun t => t.2.callsAmong (definedIds ds) := by
    conv_lhs => rw [← map_turns [] ds, List.flatMap_map]
    rw [map_turns]
  have part : ∀ t ∈ turns [] ds,
      (t.2.callsAmong t.1).Sublist (t.2.callsAmong (definedIds ds)) := fun t here =>
    (Document.edgesAmong_sublist (sub t here) t.2).map _
  rw [all, callsInTurn, flatMap_eq_flatMap_iff part]
  exact forall₂_congr fun t here => Document.callsAmong_eq_iff (sub t here) _

/-! ### Graphs of documents -/

/-- **What a graph is after some documents**: the ids that are known, the calls in order, and the
roots. -/
structure Merged (known : List String) (calls : List (String × String × Call))
    (roots : List String) (g : Graph) : Prop where
  wellFormed : g.WellFormed
  ids : ∀ id, id ∈ g.ids ↔ id ∈ known
  calls : g.namedCalls = calls
  roots : ∀ id, id ∈ g.roots.map g.idOf ↔ id ∈ roots

namespace Graph

variable {g : Graph} {n : Node}

theorem mem_ids_addNode {id : String} :
    id ∈ (g.addNode n).value.1.ids ↔ id ∈ g.ids ∨ id = n.id := by
  have ensured : Ensured g n (g.addNode n).value.1 (g.addNode n).value.2 := ensured_ensure g n
  obtain ⟨more, nodes, new⟩ := ensured.nodes
  constructor
  · intro here
    rw [ids_of_append nodes, List.mem_append] at here
    refine here.imp_right fun added => ?_
    obtain ⟨m, listed, rfl⟩ := List.mem_map.1 added
    rw [(new m listed).1]
  · rintro (old | rfl)
    · rw [ids_of_append nodes]
      exact List.mem_append_left _ old
    · exact mem_ids.2 ⟨_, ensured.inRange, ensured.id⟩

/-- A call to or from an id that is not known is left out. -/
theorem connect_of_unknown {caller callee : String} {call : Call}
    (unknown : ¬ (caller ∈ g.ids ∧ callee ∈ g.ids)) : (g.connect caller callee call).value = g := by
  unfold connect
  split
  · rename_i u v atCaller atCallee
    refine absurd ⟨?_, ?_⟩ unknown
    · exact Decidable.not_not.1 fun absent => by simp [find?_eq_none_iff.2 absent] at atCaller
    · exact Decidable.not_not.1 fun absent => by simp [find?_eq_none_iff.2 absent] at atCallee
  · rfl

end Graph

variable {g : Graph} {known : List String} {calls : List (String × String × Call)}
  {roots : List String}

namespace Merged

/-- One node more. -/
theorem addNode (merged : Merged known calls roots g) {n : Node}
    (fits : ∀ l ∈ n.location, l.line ≤ maxLine) :
    Merged (known ++ [n.id]) calls roots (g.addNode n).value.1 := by
  have ensured : Ensured g n (g.addNode n).value.1 (g.addNode n).value.2 := ensured_ensure g n
  obtain ⟨more, nodes, _⟩ := ensured.nodes
  refine ⟨merged.wellFormed.addNode fits, fun id => ?_, ?_, fun id => ?_⟩
  · rw [mem_ids_addNode, merged.ids, List.mem_append, List.mem_singleton]
  · rw [← merged.calls, namedCalls, ensured.edges]
    refine List.map_congr_left fun e here => ?_
    obtain ⟨left, right⟩ := merged.wellFormed.ends e (Array.mem_toList_iff.1 here)
    rw [idOf_of_append nodes left, idOf_of_append nodes right]
  · rw [← merged.roots, ensured.roots]
    have same : g.roots.map (g.addNode n).value.1.idOf = g.roots.map g.idOf :=
      List.map_congr_left fun r here => idOf_of_append nodes (merged.wellFormed.roots r here)
    rw [same]

theorem addNodes {rs : List NodeRecord} (merged : Merged known calls roots g)
    (fits : ∀ r ∈ rs, ∀ l, r.line = some l → l ≤ maxLine) :
    Merged (known ++ rs.map (·.id)) calls roots (Document.addNodes g rs).value := by
  induction rs generalizing g known with
  | nil => rwa [List.map_nil, List.append_nil]
  | cons r rest hyp =>
    obtain ⟨first, later⟩ := List.forall_mem_cons.1 fits
    have step := hyp (merged.addNode (n := r.toNode) (le_maxLine_of_placeOf first)) later
    rwa [List.append_assoc] at step

/-- One call more, if both its ends are known. -/
theorem connect (merged : Merged known calls roots g) {r : EdgeRecord}
    (fits : ∀ l, r.line = some l → l ≤ maxLine) :
    Merged known (calls ++ if r.caller ∈ known ∧ r.callee ∈ known then [r.named] else []) roots
      (g.connect r.caller r.callee r.toCall).value := by
  have wf : (g.connect r.caller r.callee r.toCall).value.WellFormed :=
    merged.wellFormed.connect (le_maxLine_of_placeOf fits)
  split
  · rename_i ends
    obtain ⟨u, left, caller⟩ := mem_ids.1 ((merged.ids r.caller).2 ends.1)
    obtain ⟨v, right, callee⟩ := mem_ids.1 ((merged.ids r.callee).2 ends.2)
    have added : g.connect r.caller r.callee r.toCall = ⟨g.addEdge ⟨u, v, r.toCall⟩, []⟩ :=
      connect_of_known ((find?_eq_some_iff merged.wellFormed.distinct).2 ⟨left, caller⟩)
        ((find?_eq_some_iff merged.wellFormed.distinct).2 ⟨right, callee⟩)
    rw [added] at wf ⊢
    refine ⟨wf, merged.ids, ?_, merged.roots⟩
    rw [namedCalls_addEdge, merged.calls, caller, callee]
    rfl
  · rename_i unknown
    rw [← merged.ids, ← merged.ids] at unknown
    rw [connect_of_unknown unknown, List.append_nil]
    exact merged

theorem addEdges {rs : List EdgeRecord} (merged : Merged known calls roots g)
    (fits : ∀ r ∈ rs, ∀ l, r.line = some l → l ≤ maxLine) :
    Merged known (calls ++ (rs.filter fun r => r.caller ∈ known ∧ r.callee ∈ known).map
      EdgeRecord.named) roots (Document.addEdges g rs).value := by
  induction rs generalizing g calls with
  | nil => rwa [List.filter_nil, List.map_nil, List.append_nil]
  | cons r rest hyp =>
    obtain ⟨first, later⟩ := List.forall_mem_cons.1 fits
    have step := hyp (merged.connect first) later
    rw [List.append_assoc] at step
    rw [List.filter_cons]
    by_cases ends : r.caller ∈ known ∧ r.callee ∈ known
    · rw [if_pos ends] at step
      rwa [if_pos (decide_eq_true ends)]
    · rw [if_neg ends] at step
      rwa [if_neg fun decided => ends (of_decide_eq_true decided)]

/-- One root more. -/
theorem declareRoot (merged : Merged known calls roots g) {v : Nat} (inRange : v < g.nodes.size)
    {id : String} (here : g.idOf v = id) : Merged known calls (roots ++ [id]) (g.declareRoot v) := by
  have wf := merged.wellFormed.declareRoot inRange
  have members : ∀ w, w ∈ (g.declareRoot v).roots ↔ w ∈ g.roots ∨ w = v :=
    fun _ => mem_roots_declareRoot
  -- Nothing but the roots changes, so ids and calls are those of the graph before.
  obtain ⟨numbers, same⟩ : ∃ numbers, g.declareRoot v = { g with roots := numbers } :=
    foldl_declareRoot [v] g
  rw [same] at wf members ⊢
  refine ⟨wf, merged.ids, merged.calls, fun other => ?_⟩
  rw [List.mem_append, List.mem_singleton, ← merged.roots, ← here]
  simp only [List.mem_map, members, or_and_right, exists_or, exists_eq_left]
  exact or_congr_right eq_comm

/-- More roots, if they are known. -/
theorem addRoots {ids : List String} (merged : Merged known calls roots g) :
    Merged known calls (roots ++ ids.filter (· ∈ known)) (Document.addRoots g ids).value := by
  induction ids generalizing g roots with
  | nil => rwa [List.filter_nil, List.append_nil]
  | cons id rest hyp =>
    rw [Document.addRoots, List.filter_cons]
    cases found : g.find? id with
    | none =>
      have unknown : id ∉ known := fun here => find?_eq_none_iff.1 found ((merged.ids id).2 here)
      rw [if_neg fun decided => unknown (of_decide_eq_true decided)]
      exact hyp merged
    | some v =>
      obtain ⟨inRange, here⟩ := (find?_eq_some_iff merged.wellFormed.distinct).1 found
      have listed : id ∈ known := (merged.ids id).1 (mem_ids.2 ⟨v, inRange, here⟩)
      have step := hyp (merged.declareRoot inRange here)
      rw [if_pos (decide_eq_true listed)]
      rwa [List.append_assoc] at step

/-- **One document more.** Its calls and roots are told by the ids that are known in its turn. -/
theorem merge (merged : Merged known calls roots g) {d : Document} (fits : d.LinesFit) :
    Merged (known ++ d.ids) (calls ++ d.callsAmong (known ++ d.ids))
      (roots ++ d.rootsAmong (known ++ d.ids)) (d.mergeInto g).value :=
  ((merged.addNodes fits.nodes).addEdges fits.edges).addRoots

/-- **Some documents more.** -/
theorem mergeAll (merged : Merged known calls roots g) {ds : List Document}
    (fits : ∀ d ∈ ds, d.LinesFit) :
    Merged (known ++ definedIds ds) (calls ++ callsInTurn known ds) (roots ++ rootsInTurn known ds)
      (ds.foldl (fun g d => (d.mergeInto g).value) g) := by
  -- Each document finds a graph that is `Merged`, so its calls and roots are told by what it knows.
  induction ds generalizing g known calls roots with
  | nil => simpa [definedIds, callsInTurn, rootsInTurn, turns] using merged
  | cons d rest hyp =>
    obtain ⟨first, later⟩ := List.forall_mem_cons.1 fits
    have step := hyp (merged.merge first) later
    simp only [List.append_assoc] at step
    exact step

end Merged

theorem merged_empty : Merged [] [] [] Graph.empty :=
  ⟨wellFormed_empty, fun _ => Iff.rfl, rfl, fun _ => Iff.rfl⟩

/-- **Nothing is missing from a graph** that some documents say of the ids that they define. -/
structure Complete (ds : List Document) (g : Graph) : Prop where
  calls : g.namedCalls = ds.flatMap (Document.callsAmong (definedIds ds))
  roots : ∀ id ∈ ds.flatMap (·.roots), id ∈ definedIds ds → id ∈ g.roots.map g.idOf

/-- **Documents look back**: no call leads to or from an id that only a later document defines, and a
root is declared by some document that comes after its definition, or with it. -/
structure LookBack (ds : List Document) : Prop where
  calls : ∀ t ∈ turns [] ds, ∀ r ∈ t.2.edges, r.caller ∈ definedIds ds ∧ r.callee ∈ definedIds ds →
    r.caller ∈ t.1 ∧ r.callee ∈ t.1
  roots : ∀ id ∈ ds.flatMap (·.roots), id ∈ definedIds ds →
    ∃ t ∈ turns [] ds, id ∈ t.2.roots ∧ id ∈ t.1

theorem mem_rootsInTurn {ds : List Document} {id : String} :
    id ∈ rootsInTurn known ds ↔ ∃ t ∈ turns known ds, id ∈ t.2.roots ∧ id ∈ t.1 := by
  simp only [rootsInTurn, List.mem_flatMap, Document.mem_rootsAmong]

/-- Nothing is missing if the documents look back, and only then. -/
theorem Merged.complete_iff {ds : List Document}
    (merged : Merged (definedIds ds) (callsInTurn [] ds) (rootsInTurn [] ds) g) :
    Complete ds g ↔ LookBack ds := by
  have calls := callsInTurn_eq_iff ds
  rw [← merged.calls] at calls
  have roots : ∀ id, id ∈ g.roots.map g.idOf ↔ _ := fun id =>
    (merged.roots id).trans mem_rootsInTurn
  constructor
  · intro complete
    exact ⟨calls.1 complete.calls, fun id said known => (roots id).1 (complete.roots id said known)⟩
  · intro back
    exact ⟨calls.2 back.calls, fun id said known => (roots id).2 (back.roots id said known)⟩

/-- Documents that look back declare the roots that any of them declares and any of them defines. -/
theorem Merged.mem_roots_iff {ds : List Document}
    (merged : Merged (definedIds ds) (callsInTurn [] ds) (rootsInTurn [] ds) g)
    (back : LookBack ds) (id : String) :
    id ∈ g.roots.map g.idOf ↔ id ∈ ds.flatMap (·.roots) ∧ id ∈ definedIds ds := by
  refine ⟨fun declared => ?_, fun ⟨said, known⟩ => (merged.complete_iff.2 back).roots id said known⟩
  obtain ⟨t, here, said, known⟩ := mem_rootsInTurn.1 ((merged.roots id).1 declared)
  have listed : t.2 ∈ ds := map_turns [] ds ▸ List.mem_map_of_mem here
  exact ⟨List.mem_flatMap.2 ⟨t.2, listed, said⟩, subset_of_mem_turns here known⟩

/-- **Documents that look back may be reordered.** -/
theorem Merged.reordered {ds ds' : List Document} {g' : Graph}
    (merged : Merged (definedIds ds) (callsInTurn [] ds) (rootsInTurn [] ds) g)
    (merged' : Merged (definedIds ds') (callsInTurn [] ds') (rootsInTurn [] ds') g')
    (perm : ds.Perm ds') (back : LookBack ds) (back' : LookBack ds') :
    g.namedCalls.Perm g'.namedCalls ∧ ∀ id, id ∈ g.roots.map g.idOf ↔ id ∈ g'.roots.map g'.idOf := by
  have ids : ∀ id, id ∈ definedIds ds ↔ id ∈ definedIds ds' := fun id => (perm.flatMap_right _).mem_iff
  have said : Document.callsAmong (definedIds ds) = Document.callsAmong (definedIds ds') := by
    funext d
    simp only [Document.callsAmong, Document.edgesAmong, ids]
  constructor
  · rw [(merged.complete_iff.2 back).calls, (merged'.complete_iff.2 back').calls, said]
    exact perm.flatMap_right _
  · intro id
    rw [merged.mem_roots_iff back, merged'.mem_roots_iff back', ids,
      (perm.flatMap_right fun d : Document => d.roots).mem_iff]

/-! ### Imports -/

namespace Builder

variable {fs : Files} {r : BuildRequest} {argument : String} {d : Document} {ds : List Document}

/-- An argument of a request names a file that can be read as a document. -/
def Reads (fs : Files) (r : BuildRequest) (argument : String) (d : Document) : Prop :=
  ∃ text, fs.readText (Program.pathOf r argument) = .ok text ∧ Document.ofText text = .ok d

theorem value_importDocument (reads : Reads fs r argument d) (g : Graph) :
    (importDocument fs r g argument).run.value = .ok (d.mergeInto g).value := by
  obtain ⟨text, file, document⟩ := reads
  unfold importDocument
  simp only [file, document]
  rfl

/-- Documents are merged one after another. -/
theorem value_importAll {arguments : List String} (reads : List.Forall₂ (Reads fs r) arguments ds)
    (g : Graph) : (arguments.foldlM (importDocument fs r) g).run.value =
      .ok (ds.foldl (fun g d => (d.mergeInto g).value) g) := by
  induction reads generalizing g with
  | nil => rfl
  | cons first _ hyp =>
    rw [List.foldlM_cons, Logged.value_run_bind, value_importDocument first]
    exact hyp _

/-- An import merges its documents, beginning with nothing. -/
theorem value_importGraph (reads : List.Forall₂ (Reads fs r) r.moduleArgs ds) :
    (importGraph fs r).run.value = .ok (ds.foldl (fun g d => (d.mergeInto g).value) .empty) :=
  value_importAll reads .empty

theorem linesFit_of_reads {arguments : List String}
    (reads : List.Forall₂ (Reads fs r) arguments ds) : ∀ d ∈ ds, d.LinesFit := by
  induction reads with
  | nil => exact fun d here => absurd here List.not_mem_nil
  | cons first _ hyp =>
    obtain ⟨text, _, document⟩ := first
    exact List.forall_mem_cons.2 ⟨Document.linesFit_of_ofText document, hyp⟩

/-- **An import takes its documents in turn.** The graph that is imported has the ids that some
document defines; the calls of the documents, in order, whose ends are defined by then; and the roots
that are defined by the time some document declares them. Nothing that the documents say of these ids
is missing from it exactly if they look back. Documents that look back in two orders are imported as
the same calls, up to their order, and the same roots. -/
theorem importGraph_inTurn (reads : List.Forall₂ (Reads fs r) r.moduleArgs ds) :
    ∃ g, (importGraph fs r).run.value = .ok g ∧
      (∀ id, id ∈ g.ids ↔ ∃ d ∈ ds, id ∈ d.ids) ∧
      g.namedCalls = callsInTurn [] ds ∧
      (∀ id, id ∈ g.roots.map g.idOf ↔ ∃ t ∈ turns [] ds, id ∈ t.2.roots ∧ id ∈ t.1) ∧
      (Complete ds g ↔ LookBack ds) ∧
      ∀ r' ds', List.Forall₂ (Reads fs r') r'.moduleArgs ds' → ds.Perm ds' →
        LookBack ds → LookBack ds' → ∃ g', (importGraph fs r').run.value = .ok g' ∧
          g.namedCalls.Perm g'.namedCalls ∧
          ∀ id, id ∈ g.roots.map g.idOf ↔ id ∈ g'.roots.map g'.idOf := by
  have merged := merged_empty.mergeAll (linesFit_of_reads reads)
  refine ⟨_, value_importGraph reads, fun id => (merged.ids id).trans List.mem_flatMap, merged.calls,
    fun id => (merged.roots id).trans mem_rootsInTurn, merged.complete_iff, ?_⟩
  intro r' ds' reads' perm back back'
  exact ⟨_, value_importGraph reads',
    merged.reordered (merged_empty.mergeAll (linesFit_of_reads reads')) perm back back'⟩

/-- A program that calls a library and declares a function of it to be an entry point. -/
def program : Document where
  nodes := [{ id := "app::main", name := "main", modulePath := some "app" }]
  edges := [{ caller := "app::main", callee := "lib::run" }]
  roots := ["lib::run"]

def library : Document where
  nodes := [{ id := "lib::run", name := "run", modulePath := some "lib" }]

/-- A folder with the two documents. -/
def twoDocuments : Files where
  top := .folder [("app.json", .file (some program.toText)),
    ("lib.json", .file (some library.toText))]
  here := []

/-- A request to import documents. -/
def importOf (arguments : List String) : BuildRequest where
  moduleArgs := arguments
  dir := none
  algorithm := .imported
  includeTests := false
  tags := []

theorem reads_program (arguments : List String) :
    Reads twoDocuments (importOf arguments) "app.json" program := by
  have file : twoDocuments.readText (Path.join "." "app.json") = .ok program.toText := by
    decide +kernel
  exact ⟨_, file, Document.ofText_toText ⟨by simp [program], by simp [program]⟩⟩

theorem reads_library (arguments : List String) :
    Reads twoDocuments (importOf arguments) "lib.json" library := by
  have file : twoDocuments.readText (Path.join "." "lib.json") = .ok library.toText := by
    decide +kernel
  exact ⟨_, file, Document.ofText_toText ⟨by simp [library], by simp [library]⟩⟩

theorem importGraph_inTurn_twoDocuments :
    List.Forall₂ (Reads twoDocuments (importOf ["app.json", "lib.json"])) ["app.json", "lib.json"]
      [program, library] ∧
    ∃ g, (importGraph twoDocuments (importOf ["app.json", "lib.json"])).run.value = .ok g ∧
      (∀ id, id ∈ g.ids ↔ ∃ d ∈ [program, library], id ∈ d.ids) ∧
      g.namedCalls = callsInTurn [] [program, library] ∧
      (∀ id, id ∈ g.roots.map g.idOf ↔
        ∃ t ∈ turns [] [program, library], id ∈ t.2.roots ∧ id ∈ t.1) ∧
      (Complete [program, library] g ↔ LookBack [program, library]) := by
  have reads : List.Forall₂ (Reads twoDocuments (importOf ["app.json", "lib.json"]))
      ["app.json", "lib.json"] [program, library] :=
    .cons (reads_program _) (.cons (reads_library _) .nil)
  obtain ⟨g, imported, ids, calls, roots, complete, _⟩ := importGraph_inTurn reads
  exact ⟨reads, g, imported, ids, calls, roots, complete⟩

/-- **The order of documents matters.** Both ends of the call of the program are defined by one of the
documents, and so is its root. If the library comes first, they are imported; if it comes last, they
are lost. -/
theorem importGraph_order_matters :
    program.callsAmong (definedIds [program, library]) = [("app::main", "lib::run", {})] ∧
    program.rootsAmong (definedIds [program, library]) = ["lib::run"] ∧
    (∃ g, (importGraph twoDocuments (importOf ["app.json", "lib.json"])).run.value = .ok g ∧
      g.ids = ["app::main", "lib::run"] ∧ g.namedCalls = [] ∧ g.roots = []) ∧
    ∃ g, (importGraph twoDocuments (importOf ["lib.json", "app.json"])).run.value = .ok g ∧
      g.ids = ["lib::run", "app::main"] ∧ g.namedCalls = [("app::main", "lib::run", {})] ∧
      g.roots.map g.idOf = ["lib::run"] := by
  refine ⟨by decide +kernel, by decide +kernel, ?_, ?_⟩
  · refine ⟨_, value_importGraph (.cons (reads_program _) (.cons (reads_library _) .nil)), ?_⟩
    decide +kernel
  · refine ⟨_, value_importGraph (.cons (reads_library _) (.cons (reads_program _) .nil)), ?_⟩
    decide +kernel

end Builder

end CallGraph
