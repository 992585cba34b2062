import CallGraph.Proofs.Indistinct
import CallGraph.Proofs.Merging
import CallGraph.Proofs.Reordering

/-!
**A document that is listed twice in a row counts once.**

The second time a document is read, its nodes are known and its roots are declared, and every call
that finds both its ends then has found them the first time. So nothing is added but calls that have
been said before, behind the first time that they are said, and this no query can tell.

* `Graph.Repeats` — a graph says some calls again, `Repeats.merge` — it still does after any document;
* `Repeats.indistinct`, `Repeats.indistinct_withoutSynthetic` — no query tells it apart, with or
  without synthetic nodes;
* `Graph.Covers` — what a document says is in a graph, `covers_merge`, `Covers.repeats_merge`;
* `Builder.value_importGraph_twice` — two imports end alike, in graphs of which one repeats the other;
* `Query.run_listed_twice` — so do two queries.
-/

namespace CallGraph

open CallGraph.Graph

/-! ### Graphs that say calls again -/

namespace Graph

/-- **A graph that says calls of another again**: it has the same nodes and roots, and any test finds
the same edge first. -/
structure Repeats (g g' : Graph) : Prop where
  nodes : g'.nodes = g.nodes
  roots : g'.roots = g.roots
  first : ∀ test : Edge → Bool, g'.edges.toList.find? test = g.edges.toList.find? test

variable {g g' g'' : Graph}

theorem find?_congr_nodes (nodes : g'.nodes = g.nodes) (id : String) : g'.find? id = g.find? id := by
  rw [find?, nodes, find?]

namespace Repeats

theorem refl (g : Graph) : Repeats g g :=
  ⟨rfl, rfl, fun _ => rfl⟩

theorem trans (left : Repeats g g') (right : Repeats g' g'') : Repeats g g'' :=
  ⟨right.nodes.trans left.nodes, right.roots.trans left.roots, fun test =>
    (right.first test).trans (left.first test)⟩

theorem mem_edges (again : Repeats g g') {e : Edge} : e ∈ g'.edges ↔ e ∈ g.edges := by
  have found : ∀ {g : Graph}, e ∈ g.edges ↔
      (g.edges.toList.find? fun e' => decide (e' = e)).isSome = true := by
    intro g
    rw [List.find?_isSome, ← Array.mem_toList_iff]
    simp
  rw [found, found, again.first]

/-- A call that has been said may be said again. -/
theorem addEdge_of_mem {e : Edge} (here : e ∈ g.edges) : Repeats g (g.addEdge e) := by
  refine ⟨rfl, rfl, fun test => ?_⟩
  show (g.edges.push e).toList.find? test = _
  rw [Array.toList_push, List.find?_append]
  cases found : g.edges.toList.find? test with
  | some first => rfl
  | none =>
    have fails := List.find?_eq_none.1 found e (Array.mem_toList_iff.2 here)
    rw [Option.none_or, List.find?_cons_of_neg fails, List.find?_nil]

/-! ### They grow alike -/

theorem addNode (again : Repeats g g') (n : Node) :
    Repeats (g.addNode n).value.1 (g'.addNode n).value.1 := by
  unfold Graph.addNode
  rw [find?_congr_nodes again.nodes]
  cases g.find? n.id with
  | some known => exact again
  | none => exact ⟨congrArg (·.push n) again.nodes, again.roots, again.first⟩

theorem addEdge (again : Repeats g g') (e : Edge) : Repeats (g.addEdge e) (g'.addEdge e) := by
  refine ⟨again.nodes, again.roots, fun test => ?_⟩
  show (g'.edges.push e).toList.find? test = (g.edges.push e).toList.find? test
  rw [Array.toList_push, Array.toList_push, List.find?_append, List.find?_append, again.first]

theorem connect (again : Repeats g g') (caller callee : String) (call : Call) :
    Repeats (g.connect caller callee call).value (g'.connect caller callee call).value := by
  unfold Graph.connect
  rw [find?_congr_nodes again.nodes, find?_congr_nodes again.nodes]
  split
  · exact again.addEdge _
  · exact again

theorem declareRoot (again : Repeats g g') (v : Nat) :
    Repeats (g.declareRoot v) (g'.declareRoot v) := by
  unfold Graph.declareRoot
  rw [again.roots]
  split
  · exact again
  · exact ⟨again.nodes, rfl, again.first⟩

theorem addNodes (again : Repeats g g') (rs : List NodeRecord) :
    Repeats (Document.addNodes g rs).value (Document.addNodes g' rs).value := by
  induction rs generalizing g g' with
  | nil => exact again
  | cons r rest hyp => exact hyp (again.addNode r.toNode)

theorem addEdges (again : Repeats g g') (rs : List EdgeRecord) :
    Repeats (Document.addEdges g rs).value (Document.addEdges g' rs).value := by
  induction rs generalizing g g' with
  | nil => exact again
  | cons r rest hyp => exact hyp (again.connect r.caller r.callee r.toCall)

theorem addRoots (again : Repeats g g') (ids : List String) :
    Repeats (Document.addRoots g ids).value (Document.addRoots g' ids).value := by
  induction ids generalizing g g' with
  | nil => exact again
  | cons id rest hyp =>
    unfold Document.addRoots
    rw [find?_congr_nodes again.nodes]
    cases g.find? id with
    | some v => exact hyp (again.declareRoot v)
    | none => exact hyp again

/-- **A document adds the same to both.** -/
theorem merge (again : Repeats g g') (d : Document) :
    Repeats (d.mergeInto g).value (d.mergeInto g').value :=
  ((again.addNodes d.nodes).addEdges d.edges).addRoots d.roots

theorem mergeAll (again : Repeats g g') (ds : List Document) :
    Repeats (ds.foldl (fun g d => (d.mergeInto g).value) g)
      (ds.foldl (fun g d => (d.mergeInto g).value) g') := by
  induction ds generalizing g g' with
  | nil => exact again
  | cons d rest hyp => exact hyp (again.merge d)

/-! ### No query tells them apart -/

theorem indistinct (again : Repeats g g') : Indistinct g g' := by
  refine ⟨again.nodes, again.roots, fun n m test _ => ?_⟩
  have tests : (fun e => decide (g'.Fits n m test e)) = fun e => decide (g.Fits n m test e) := by
    funext e
    refine decide_eq_decide.2 ?_
    unfold Fits
    rw [node?_congr again.nodes]
  rw [firstCall_eq_find?, firstCall_eq_find?, tests, again.first]

/-- Of the calls of a node, any test finds the same first. -/
theorem find?_callsFrom (again : Repeats g g') (n : Node) (test : Node × Call → Bool) :
    (g'.callsFrom n).find? test = (g.callsFrom n).find? test := by
  unfold callsFrom
  rw [node?_congr again.nodes, List.find?_filterMap, List.find?_filterMap, again.first]

theorem indistinct_withoutSynthetic (again : Repeats g g') (wf : g.WellFormed)
    (wf' : g'.WellFormed) : Indistinct g.withoutSynthetic g'.withoutSynthetic := by
  have kept : g'.kept = g.kept := by
    unfold kept nodeNumbers isSynthetic
    rw [again.nodes, node?_congr again.nodes]
  refine ⟨?_, ?_, fun n m test known => ?_⟩
  · rw [← Array.toList_inj, nodes_withoutSynthetic, nodes_withoutSynthetic, again.nodes]
  · show g'.roots.filterMap g'.renumber? = g.roots.filterMap g.renumber?
    unfold renumber?
    rw [again.roots, kept]
  · exact (again.indistinct.alike.firstCall_withoutSynthetic wf wf' known
      (fun _ => (again.find?_callsFrom n _).symm) test).symm

end Repeats

/-! ### What a document says is there -/

/-- **A graph covers a document**: it has nodes with its ids, its calls between ids that are known, and
its roots that are known. -/
structure Covers (g : Graph) (d : Document) : Prop where
  nodes : ∀ r ∈ d.nodes, r.id ∈ g.ids
  calls : ∀ r ∈ d.edges, ∀ u v, g.find? r.caller = some u → g.find? r.callee = some v →
    ⟨u, v, r.toCall⟩ ∈ g.edges
  roots : ∀ id ∈ d.roots, ∀ v, g.find? id = some v → v ∈ g.roots

/-- **A graph covers what it has read.** -/
theorem covers_merge (wf : g.WellFormed) {d : Document} (fits : d.LinesFit) :
    (d.mergeInto g).value.Covers d := by
  have start : Merged g.ids g.namedCalls (g.roots.map g.idOf) g :=
    ⟨wf, fun _ => Iff.rfl, rfl, fun _ => Iff.rfl⟩
  have merged := start.merge fits
  have wf' := merged.wellFormed
  -- An id that is looked up with success is one that the graph knows.
  have known : ∀ {id : String} {v : Nat}, (d.mergeInto g).value.find? id = some v →
      (v < (d.mergeInto g).value.nodes.size ∧ (d.mergeInto g).value.idOf v = id) ∧
        id ∈ g.ids ++ d.ids := by
    intro id v found
    have here := (find?_eq_some_iff wf'.distinct).1 found
    exact ⟨here, (merged.ids id).1 (mem_ids.2 ⟨v, here⟩)⟩
  refine ⟨fun r here => ?_, fun r here u v caller callee => ?_, fun id here v found => ?_⟩
  · exact (merged.ids r.id).2 (List.mem_append_right _ (List.mem_map_of_mem here))
  · obtain ⟨⟨atU, idU⟩, left⟩ := known caller
    obtain ⟨⟨atV, idV⟩, right⟩ := known callee
    have said : r.named ∈ (d.mergeInto g).value.namedCalls := by
      rw [merged.calls]
      exact List.mem_append_right _
        (List.mem_map_of_mem (Document.mem_edgesAmong.2 ⟨here, left, right⟩))
    obtain ⟨⟨a, b, call⟩, inEdges, same⟩ := List.mem_map.1 said
    obtain ⟨atA, atB⟩ := wf'.ends _ (Array.mem_toList_iff.1 inEdges)
    simp only [EdgeRecord.named, Prod.mk.injEq] at same
    obtain ⟨idA, idB, rfl⟩ := same
    obtain rfl := idOf_inj wf'.distinct atA atU (idA.trans idU.symm)
    obtain rfl := idOf_inj wf'.distinct atB atV (idB.trans idV.symm)
    exact Array.mem_toList_iff.1 inEdges
  · obtain ⟨⟨inRange, named⟩, listed⟩ := known found
    have declared := (merged.roots id).2
      (List.mem_append_right _ (Document.mem_rootsAmong.2 ⟨here, listed⟩))
    obtain ⟨r, root, same⟩ := List.mem_map.1 declared
    have number := idOf_inj wf'.distinct (wf'.roots r root) inRange (same.trans named.symm)
    exact number ▸ root

/-- Nodes whose ids are known are not added. -/
theorem addNodes_of_known {rs : List NodeRecord} (known : ∀ r ∈ rs, r.id ∈ g.ids) :
    (Document.addNodes g rs).value = g := by
  induction rs with
  | nil => rfl
  | cons r rest hyp =>
    obtain ⟨first, later⟩ := List.forall_mem_cons.1 known
    obtain ⟨v, found⟩ := Option.ne_none_iff_exists'.1 fun absent => find?_eq_none_iff.1 absent first
    have same : (g.addNode r.toNode).value.1 = g := by
      rw [addNode_of_known (n := r.toNode) found]
    show (Document.addNodes (g.addNode r.toNode).value.1 rest).value = g
    rw [same]
    exact hyp later

/-- Calls that have been said are said again. -/
theorem repeats_addEdges {rs : List EdgeRecord} (said : ∀ r ∈ rs, ∀ u v,
    g.find? r.caller = some u → g.find? r.callee = some v → ⟨u, v, r.toCall⟩ ∈ g.edges) :
    Repeats g (Document.addEdges g rs).value := by
  induction rs generalizing g with
  | nil => exact .refl g
  | cons r rest hyp =>
    obtain ⟨first, later⟩ := List.forall_mem_cons.1 said
    have step : Repeats g (g.connect r.caller r.callee r.toCall).value := by
      unfold connect
      split
      · rename_i u v caller callee
        exact .addEdge_of_mem (first u v caller callee)
      · exact .refl g
    refine step.trans (hyp fun r' here u v caller callee => ?_)
    rw [find?_congr_nodes step.nodes] at caller callee
    exact step.mem_edges.2 (later r' here u v caller callee)

/-- Roots that have been declared are not added. -/
theorem addRoots_of_declared {ids : List String}
    (declared : ∀ id ∈ ids, ∀ v, g.find? id = some v → v ∈ g.roots) :
    (Document.addRoots g ids).value = g := by
  induction ids with
  | nil => rfl
  | cons id rest hyp =>
    obtain ⟨first, later⟩ := List.forall_mem_cons.1 declared
    unfold Document.addRoots
    split
    · rename_i v found
      have same : g.declareRoot v = g := if_pos (first v found)
      rw [same]
      exact hyp later
    · exact hyp later

/-- **A document that is covered adds nothing new.** -/
theorem Covers.repeats_merge {d : Document} (covers : g.Covers d) : Repeats g (d.mergeInto g).value := by
  have calls := repeats_addEdges covers.calls
  show Repeats g (Document.addRoots
    (Document.addEdges (Document.addNodes g d.nodes).value d.edges).value d.roots).value
  rw [addNodes_of_known covers.nodes, addRoots_of_declared]
  · exact calls
  · intro id here v found
    rw [find?_congr_nodes calls.nodes] at found
    exact calls.roots ▸ covers.roots id here v found

end Graph

/-! ### Imports -/

namespace Builder

variable {fs : Files} {r : BuildRequest} {argument : String} {before after rest : List String}
  {failure : BuildFailure} {ds : List Document}

/-- Some arguments cannot be read, whatever has been read before. -/
def Unreadable (fs : Files) (r : BuildRequest) (arguments : List String) (failure : BuildFailure) :
    Prop :=
  ∀ g, (arguments.foldlM (importDocument fs r) g).run.value = .error failure

theorem Unreadable.append (unreadable : Unreadable fs r before failure) (rest : List String) :
    Unreadable fs r (before ++ rest) failure := by
  intro g
  rw [List.foldlM_append, Logged.value_run_bind, unreadable g]
  rfl

theorem Unreadable.behind (unreadable : Unreadable fs r rest failure)
    (reads : List.Forall₂ (Reads fs r) before ds) : Unreadable fs r (before ++ rest) failure := by
  intro g
  rw [List.foldlM_append, Logged.value_run_bind, value_importAll reads]
  exact unreadable _

/-- An argument can be read as a document, or not. -/
theorem unreadable_or_reads (fs : Files) (r : BuildRequest) (argument : String) :
    (∃ failure, Unreadable fs r [argument] failure) ∨ ∃ d, Reads fs r argument d := by
  cases file : fs.readText (Program.pathOf r argument) with
  | error fault =>
    refine Or.inl ⟨.unreadableDocument (Program.pathOf r argument) fault, fun g => ?_⟩
    rw [List.foldlM_cons, Logged.value_run_bind]
    unfold importDocument
    simp only [file]
    rfl
  | ok text =>
    cases document : Document.ofText text with
    | error fault =>
      refine Or.inl ⟨.badDocument (Program.pathOf r argument) fault, fun g => ?_⟩
      rw [List.foldlM_cons, Logged.value_run_bind]
      unfold importDocument
      simp only [file, document]
      rfl
    | ok d => exact Or.inr ⟨d, text, file, document⟩

/-- All of some arguments can be read, or the first that cannot ends it. -/
theorem unreadable_or_readAll (fs : Files) (r : BuildRequest) (arguments : List String) :
    (∃ failure, Unreadable fs r arguments failure) ∨
      ∃ ds, List.Forall₂ (Reads fs r) arguments ds := by
  induction arguments with
  | nil => exact Or.inr ⟨[], .nil⟩
  | cons argument rest hyp =>
    obtain ⟨failure, unreadable⟩ | ⟨d, first⟩ := unreadable_or_reads fs r argument
    · exact Or.inl ⟨failure, unreadable.append rest⟩
    · have first : List.Forall₂ (Reads fs r) [argument] [d] := .cons first .nil
      obtain ⟨failure, unreadable⟩ | ⟨ds, later⟩ := hyp
      · exact Or.inl ⟨failure, unreadable.behind first⟩
      · exact Or.inr ⟨d :: ds, List.rel_append first later⟩

variable (fs) in
/-- **An import with an argument listed twice in a row** ends in the same failure, or in a graph that
says calls again. -/
theorem value_importGraph_twice {r' : BuildRequest} (dir : r'.dir = r.dir)
    (once : r.moduleArgs = before ++ argument :: after)
    (twice : r'.moduleArgs = before ++ argument :: argument :: after) :
    (∃ failure, (importGraph fs r).run.value = .error failure ∧
      (importGraph fs r').run.value = .error failure) ∨
    ∃ g g', (importGraph fs r).run.value = .ok g ∧ (importGraph fs r').run.value = .ok g' ∧
      g.WellFormed ∧ g'.WellFormed ∧ Repeats g g' := by
  have paths : importDocument fs r' = importDocument fs r := by
    funext g argument
    unfold importDocument Program.pathOf Program.baseOf
    rw [dir]
  have value : (importGraph fs r).run.value =
      ((before ++ ([argument] ++ after)).foldlM (importDocument fs r) .empty).run.value := by
    rw [importGraph, once]
    rfl
  have value' : (importGraph fs r').run.value =
      ((before ++ ([argument] ++ ([argument] ++ after))).foldlM (importDocument fs r)
        .empty).run.value := by
    rw [importGraph, twice, paths]
    rfl
  have fails : ∀ {failure}, Unreadable fs r (before ++ ([argument] ++ after)) failure →
      Unreadable fs r (before ++ ([argument] ++ ([argument] ++ after))) failure →
      ∃ failure, (importGraph fs r).run.value = .error failure ∧
        (importGraph fs r').run.value = .error failure := fun {failure} left right =>
    ⟨failure, value.trans (left .empty), value'.trans (right .empty)⟩
  -- The first argument that cannot be read is the same one in both lists.
  obtain ⟨failure, unreadable⟩ | ⟨first, readFirst⟩ := unreadable_or_readAll fs r before
  · exact Or.inl (fails (unreadable.append _) (unreadable.append _))
  obtain ⟨failure, unreadable⟩ | ⟨d, readIt⟩ := unreadable_or_reads fs r argument
  · exact Or.inl (fails ((unreadable.append _).behind readFirst)
      ((unreadable.append _).behind readFirst))
  have readIt : List.Forall₂ (Reads fs r) [argument] [d] := .cons readIt .nil
  obtain ⟨failure, unreadable⟩ | ⟨last, readLast⟩ := unreadable_or_readAll fs r after
  · exact Or.inl (fails ((unreadable.behind readIt).behind readFirst)
      (((unreadable.behind readIt).behind readIt).behind readFirst))
  · have reads := List.rel_append readFirst (List.rel_append readIt readLast)
    have reads' := List.rel_append readFirst (List.rel_append readIt (List.rel_append readIt readLast))
    have merged := merged_empty.mergeAll (linesFit_of_reads reads)
    have merged' := merged_empty.mergeAll (linesFit_of_reads reads')
    refine Or.inr ⟨_, _, value.trans (value_importAll reads .empty),
      value'.trans (value_importAll reads' .empty), merged.wellFormed, merged'.wellFormed, ?_⟩
    have start := merged_empty.mergeAll (linesFit_of_reads readFirst)
    have fits := linesFit_of_reads readIt d List.mem_cons_self
    simp only [List.foldl_append, List.foldl_cons, List.foldl_nil]
    exact (covers_merge start.wellFormed fits).repeats_merge.mergeAll last

end Builder

/-! ### Queries -/

/-- The arguments of a request are asked for nothing but whether there are any. -/
theorem Request.validate_withArguments (request : Request) {xs ys : List String}
    (left : cleanList xs ≠ []) (right : cleanList ys ≠ []) :
    { request with moduleArgs := ys }.validate = { request with moduleArgs := xs }.validate.map
      fun plan : Plan => { plan with build := { plan.build with moduleArgs := cleanList ys } } := by
  unfold validate depthBound filterConfig
  simp only [if_neg left, if_neg right]
  cases orUnknown .algorithm request.algo (Algorithm.parse? request.algo) with
  | error e => rfl
  | ok algorithm =>
  cases orUnknown .direction request.direction (Direction.parse? request.direction) with
  | error e => rfl
  | ok direction =>
  cases orUnknown .format request.format (Format.parse? request.format) with
  | error e => rfl
  | ok format =>
  cases orUnknown .endpointMatch request.endpointMatch
    (EndpointMatch.parse? request.endpointMatch) with
  | error e => rfl
  | ok endpointMatch =>
  cases readGroup (cleanList request.group) <;> rfl

namespace Query

/-- **A document that is listed twice in a row counts once.** A request to import documents has the
same answer, or ends in the same error, if one of its arguments is listed twice in succession. -/
theorem run_listed_twice (fs : Files) (request : Request) (interrupt : Interrupt)
    {once twice before after : List String} {argument : String}
    (imports : ∀ algorithm ∈ Algorithm.parse? request.algo, algorithm = .imported)
    (listed : cleanList once = before ++ argument :: after)
    (again : cleanList twice = before ++ argument :: argument :: after) :
    (run fs.builder { request with moduleArgs := twice } interrupt).run.value =
      (run fs.builder { request with moduleArgs := once } interrupt).run.value := by
  have left : cleanList once ≠ [] := by simp [listed]
  have right : cleanList twice ≠ [] := by simp [again]
  rw [value_run_eq, value_run_eq, request.validate_withArguments left right]
  cases valid : { request with moduleArgs := once }.validate with
  | error e => rfl
  | ok plan =>
    have means := Request.validate_eq_ok_iff.1 valid
    have algorithm : plan.build.algorithm = .imported := imports _ means.algorithm
    have arguments : plan.build.moduleArgs = before ++ argument :: after := by
      rw [means.build]
      exact listed
    have twiceBuild : fs.builder { plan.build with moduleArgs := cleanList twice } =
        Builder.importGraph fs { plan.build with moduleArgs := cleanList twice } := by
      unfold Files.builder
      simp only [algorithm]
    have onceBuild : fs.builder plan.build = Builder.importGraph fs plan.build := by
      unfold Files.builder
      rw [algorithm]
    show (((fs.builder { plan.build with moduleArgs := cleanList twice }).run.value.mapError
        .construction).bind fun g => (select g plan (effectiveInterrupt plan interrupt)).run.value.map
          (answerOf plan)) =
      ((fs.builder plan.build).run.value.mapError .construction).bind fun g =>
        (select g plan (effectiveInterrupt plan interrupt)).run.value.map (answerOf plan)
    rw [twiceBuild, onceBuild]
    have dir : { plan.build with moduleArgs := cleanList twice }.dir = plan.build.dir := rfl
    obtain ⟨failure, fails, fails'⟩ | ⟨g, g', value, value', wf, wf', same⟩ :=
      Builder.value_importGraph_twice fs dir arguments again
    · rw [fails, fails']
    · rw [value, value']
      exact value_select_congr wf wf' same.indistinct (same.indistinct_withoutSynthetic wf wf')

/-- A request to draw what a library is called for. -/
def callsOfLibrary : Request where
  algo := "json"
  focus := some "lib"
  excludeUnexported := false

theorem run_listed_twice_twoDocuments :
    (∀ algorithm ∈ Algorithm.parse? callsOfLibrary.algo, algorithm = .imported) ∧
    cleanList ["lib.json", "app.json"] = ["lib.json"] ++ "app.json" :: [] ∧
    cleanList ["lib.json, app.json", "app.json"] = ["lib.json"] ++ "app.json" :: "app.json" :: [] ∧
    (run Builder.twoDocuments.builder
      { callsOfLibrary with moduleArgs := ["lib.json, app.json", "app.json"] } .none).run.value =
      (run Builder.twoDocuments.builder
        { callsOfLibrary with moduleArgs := ["lib.json", "app.json"] } .none).run.value := by
  have imports : ∀ algorithm ∈ Algorithm.parse? callsOfLibrary.algo, algorithm = .imported := by
    decide +kernel
  have listed : cleanList ["lib.json", "app.json"] = ["lib.json"] ++ "app.json" :: [] := by
    decide +kernel
  have again : cleanList ["lib.json, app.json", "app.json"] =
      ["lib.json"] ++ "app.json" :: "app.json" :: [] := by
    decide +kernel
  exact ⟨imports, listed, again,
    run_listed_twice Builder.twoDocuments callsOfLibrary .none imports listed again⟩

end Query

end CallGraph
