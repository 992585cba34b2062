import CallGraph.Proofs.Assembly
import CallGraph.Proofs.Declared

/-!
**The analyses are ordered by precision.**

Whatever a call means to one of the analyses of sources, it means to the one that takes every method
of a name into account; what is left is a method call that matches nothing. Its node has an id that
no function has, so the edges of the other analyses that end at functions are edges of that one.

* `mem_resolve_cha` — the targets of a call;
* `Foreign.Told`, `told_of_mem_resolve` — how a function elsewhere is told from a reference that
  matches nothing, `id_ne_of_told`;
* `forall_node_assemble` — the nodes of a graph are those of definitions and of targets;
* `included`, `assembled_callGraph?` — the definitions that a graph is assembled from;
* `Builder.analyse_within_cha` — the edges.
-/

namespace CallGraph.Program

open Source (Definition Site Name)

/-! ### Ids -/

/-- A character of a name is one of the path. -/
theorem mem_ofSegments {c : Char} {name : String} {path : List String} (here : name ∈ path)
    (inName : c ∈ name.toList) : c ∈ (ModulePath.ofSegments path).toList := by
  unfold ModulePath.ofSegments
  induction path with
  | nil => exact absurd here List.not_mem_nil
  | cons first rest hyp =>
    cases rest with
    | nil =>
      rw [List.mem_singleton.1 here] at inName
      rwa [String.intercalate_singleton]
    | cons second others =>
      rw [String.intercalate_cons_cons, String.toList_append, String.toList_append,
        List.mem_append, List.mem_append]
      rcases List.mem_cons.1 here with same | later
      · exact Or.inl (Or.inl (same ▸ inName))
      · exact Or.inr (hyp later)

/-- A path starts as its first name does. -/
theorem head?_ofSegments {first : String} {c : Char} (rest : List String)
    (starts : first.toList.head? = some c) :
    (ModulePath.ofSegments (first :: rest)).toList.head? = some c := by
  unfold ModulePath.ofSegments
  cases rest with
  | nil => rwa [String.intercalate_singleton]
  | cons second others =>
    rw [String.intercalate_cons_cons, String.toList_append, String.toList_append,
      List.append_assoc, List.head?_append, starts]
    rfl

/-- A path that leads into the platform's library, or has several names. -/
def LeadsElsewhere (path : List String) : Prop :=
  isPlatformPath path = true ∨ 2 ≤ path.length

theorem LeadsElsewhere.ne_nil {path : List String} (leads : LeadsElsewhere path) : path ≠ [] := by
  rintro rfl
  rcases leads with platform | several
  · cases platform
  · cases several

/-- **A function that is known to be elsewhere**: its path leads into the platform's library, has
several names, or is that of a macro. -/
def Foreign.Told (f : Foreign) : Prop :=
  isPlatformPath f.path = true ∨ 2 ≤ f.path.length ∨ ∃ path, f.path = Index.withBang path

/-- What a call of a method that matches nothing is known by. -/
def strayId (name : String) : String :=
  "?" ++ ("." ++ name)

theorem toList_strayId (name : String) : (strayId name).toList = '?' :: '.' :: name.toList := by
  simp [strayId]

/-- A name of a source has neither of the marks that tell ids apart. -/
theorem notMem_strayId {c : Char} (other : Source.isNameChar c = false) (question : c ≠ '?')
    (dot : c ≠ '.') (n : Name) : c ∉ (strayId n.text).toList := by
  rw [toList_strayId, List.mem_cons, List.mem_cons]
  rintro (same | same | here)
  · exact question same
  · exact dot same
  · exact n.not_mem other here

/-- The path of a platform function starts with a letter. -/
theorem head?_of_isPlatformPath {path : List String} (platform : isPlatformPath path = true) :
    (ModulePath.ofSegments path).toList.head? ≠ some '?' := by
  cases path with
  | nil => cases platform
  | cons first rest =>
    have listed : first = "std" ∨ first = "core" ∨ first = "alloc" := by
      simpa [isPlatformPath, platformCrates] using platform
    rcases listed with rfl | rfl | rfl
    · rw [head?_ofSegments rest (c := 's') (by decide)]
      decide
    · rw [head?_ofSegments rest (c := 'c') (by decide)]
      decide
    · rw [head?_ofSegments rest (c := 'a') (by decide)]
      decide

/-- **No function elsewhere has the id of a method call that matches nothing.** -/
theorem id_ne_of_told {f : Foreign} (told : f.Told) (n : Name) : f.id ≠ strayId n.text := by
  intro same
  unfold Foreign.id at same
  rcases told with platform | several | ⟨path, bang⟩
  · refine head?_of_isPlatformPath platform ?_
    rw [same, toList_strayId]
    rfl
  · obtain ⟨first, second, rest, shape⟩ : ∃ first second rest, f.path = first :: second :: rest := by
      match f.path, several with
      | first :: second :: rest, _ => exact ⟨first, second, rest, rfl⟩
    refine notMem_strayId (c := ':') (by decide) (by decide) (by decide) n ?_
    rw [← same, shape, ModulePath.ofSegments, String.intercalate_cons_cons]
    simp
  · unfold Index.withBang at bang
    split at bang
    · rw [bang] at same
      have nothing := congrArg String.toList same
      rw [toList_strayId] at nothing
      cases nothing
    · rename_i last before _
      refine notMem_strayId (c := '!') (by decide) (by decide) (by decide) n ?_
      rw [← same, bang]
      exact mem_ofSegments (List.mem_append_right _ (List.mem_singleton_self _)) (by simp)

/-- No definition has it either. -/
theorem Index.id_ne_of_definition? {sources : List SourceFile} {on : Source.Features} {i : Nat}
    {d : Definition} (found : (Index.ofSources sources on).definition? i = some d) (n : Name) :
    d.id ≠ strayId n.text := by
  obtain ⟨o, modulePath, owner, exported, f, rfl⟩ := exists_define_of_definition? found
  intro same
  refine notMem_strayId (c := ':') (by decide) (by decide) (by decide) n ?_
  rw [← same]
  exact Source.colon_mem_functionId _ _ _

namespace Index

variable {ix : Index} {algorithm : Algorithm} {made : Option (List String)} {d : Definition}
  {site : Site} {t : Target}

/-! ### Targets -/

theorem mem_orUnresolved_of_mem {text : String} {found : List Target} (here : t ∈ found) :
    t ∈ Target.orUnresolved text found := by
  unfold Target.orUnresolved
  split
  · rename_i none
    rw [List.isEmpty_iff.1 none] at here
    exact absurd here List.not_mem_nil
  · exact here

theorem mem_of_mem_orUnresolved {text : String} {found : List Target}
    (here : t ∈ Target.orUnresolved text found) : t ∈ found ∨ t = .unresolved text := by
  unfold Target.orUnresolved at here
  split at here
  · exact Or.inr (List.mem_singleton.1 here)
  · exact Or.inl here

/-- The methods of the type itself are taken first by every analysis. -/
theorem methodTargets_subset_cha (name : String) (onSelf : Bool) :
    ix.methodTargets algorithm made d name onSelf ⊆ ix.methodTargets .cha none d name onSelf := by
  intro i here
  unfold methodTargets at here ⊢
  split at here
  · rename_i none
    rw [if_pos none]
    exact ix.methodChoices_subset algorithm made name here
  · rename_i own
    rwa [if_neg own]

/-- **What a call means to an analysis it means to the one that takes all methods into account**,
unless it is a method call that matches nothing. -/
theorem mem_resolve_cha (means : t ∈ ix.resolve algorithm made d site) :
    t ∈ ix.resolve .cha none d site ∨
      ∃ name onSelf, site.target = .method name onSelf ∧ t = .unresolved ("." ++ name) := by
  unfold resolve at means ⊢
  cases target : site.target with
  | path names | argument names | expansion names =>
    rw [target] at means
    exact Or.inl means
  | method name onSelf =>
    rw [target] at means
    rcases mem_of_mem_orUnresolved means with found | nothing
    · obtain ⟨i, chosen, rfl⟩ := List.mem_map.1 found
      refine Or.inl (mem_orUnresolved_of_mem (List.mem_map_of_mem ?_))
      exact methodTargets_subset_cha name onSelf chosen
    · exact Or.inr ⟨name, onSelf, rfl, nothing⟩

/-! ### Functions elsewhere -/

/-- What the prelude gives lies in the platform's library. -/
theorem isPlatformPath_of_prelude {first : String} {full : List String}
    (known : prelude.lookup first = some full) (rest : List String) :
    isPlatformPath (full ++ rest) = true := by
  obtain ⟨before, after, split, _⟩ := List.lookup_eq_some_iff.1 known
  have listed : (first, full) ∈ prelude := split ▸ List.mem_append_right _ List.mem_cons_self
  have all : ∀ entry ∈ prelude, ∃ name others, entry.2 = name :: others ∧
      platformCrates.contains name = true := by
    simp [prelude, platformCrates]
  obtain ⟨name, others, shape, platform⟩ := all _ listed
  rw [show full = name :: others from shape]
  exact platform

theorem leadsElsewhere_of_mem_resolveNames {names : List String} {modulePath crate : String}
    {f : Foreign} (means : .standard f ∈ ix.resolveNames names modulePath crate ∨
      .external f ∈ ix.resolveNames names modulePath crate) : LeadsElsewhere f.path := by
  unfold resolveNames at means
  split at means
  · rename_i platform
    simp only [List.mem_singleton, Target.standard.injEq, reduceCtorEq, or_false] at means
    exact Or.inl (means ▸ platform)
  · split at means
    · simp at means
    · split at means
      · simp at means
      · split at means
        · rename_i full known
          simp only [List.mem_singleton, Target.standard.injEq, reduceCtorEq, or_false] at means
          obtain ⟨first, _, listed⟩ := Option.bind_eq_some_iff.1 known
          exact Or.inl (means ▸ isPlatformPath_of_prelude listed _)
        · split at means
          · rename_i leads
            simp only [List.mem_singleton, Target.external.injEq, reduceCtorEq, false_or] at means
            simp only [leadsOut, Bool.and_eq_true, decide_eq_true_eq] at leads
            exact Or.inr (means ▸ leads.1.1)
          · simp at means

theorem leadsElsewhere_of_mem_resolvePath {names : List String} {f : Foreign}
    (means : .standard f ∈ ix.resolvePath d names ∨ .external f ∈ ix.resolvePath d names) :
    LeadsElsewhere f.path := by
  have found : .standard f ∈ ix.pathTargets d names ∨ .external f ∈ ix.pathTargets d names := by
    refine means.imp (fun here => ?_) fun here => ?_
    · exact (mem_of_mem_orUnresolved here).resolve_right nofun
    · exact (mem_of_mem_orUnresolved here).resolve_right nofun
  unfold pathTargets at found
  split at found
  · simp at found
  · split at found <;> simp at found
  · split at found
    · simp at found
    · exact leadsElsewhere_of_mem_resolveNames found

theorem told_of_resolveMacro {names : List String} {modulePath : String} {f : Foreign}
    (means : .standard f = ix.resolveMacro names modulePath ∨
      .external f = ix.resolveMacro names modulePath) : f.Told := by
  unfold resolveMacro at means
  split at means
  · simp at means
  · split at means
    · simp only [Target.standard.injEq, reduceCtorEq, or_false] at means
      exact Or.inl (means ▸ rfl)
    · simp at means
  · dsimp only at means
    split at means
    · simp only [Target.standard.injEq, reduceCtorEq, or_false] at means
      exact Or.inr (Or.inr ⟨_, congrArg Foreign.path means⟩)
    · simp only [Target.external.injEq, reduceCtorEq, false_or] at means
      exact Or.inr (Or.inr ⟨_, congrArg Foreign.path means⟩)

/-- **A call refers to functions elsewhere only if they are known to be there.** -/
theorem told_of_mem_resolve {f : Foreign} (means : .standard f ∈ ix.resolve algorithm made d site ∨
    .external f ∈ ix.resolve algorithm made d site) : f.Told := by
  unfold resolve at means
  split at means
  · exact (leadsElsewhere_of_mem_resolvePath means).imp_right Or.inl
  · simp only [List.mem_filter, Target.definition?, Option.isSome_none, Bool.false_eq_true,
      and_false, or_false] at means
  · simp only [List.mem_singleton] at means
    exact told_of_resolveMacro means
  · simp only [resolveMethod, Target.orUnresolved] at means
    split at means <;> simp at means

/-! ### The nodes of a graph -/

variable {P : Node → Prop} {g : Graph}

theorem forall_node_ensure {n : Node} (new : P n) (old : ∀ m ∈ g.nodes, P m) :
    ∀ m ∈ (g.ensure n).1.nodes, P m := by
  obtain ⟨more, nodes, added⟩ := (g.ensured_ensure n).nodes
  intro m here
  rw [← Array.mem_toList_iff, nodes, List.mem_append, Array.mem_toList_iff] at here
  rcases here with known | fresh
  · exact old m known
  · exact (added m fresh).1 ▸ new

theorem forall_node_addDefinitions {ds : List Definition}
    (own : ∀ d ∈ ds, P (definitionNode d)) (old : ∀ m ∈ g.nodes, P m) :
    ∀ m ∈ (addDefinitions g ds).value.nodes, P m := by
  induction ds generalizing g with
  | nil => exact old
  | cons d rest hyp =>
    obtain ⟨first, later⟩ := List.forall_mem_cons.1 own
    exact hyp later (forall_node_ensure first old)

theorem forall_node_addCall {caller : Nat} {place : Location}
    (target : ∀ n, ix.nodeOf t = some n → P n) (old : ∀ m ∈ g.nodes, P m) :
    ∀ m ∈ (ix.addCall caller place g t).nodes, P m := by
  cases node : ix.nodeOf t with
  | none =>
    unfold addCall
    rwa [node]
  | some n =>
    rw [addCall_eq node]
    exact forall_node_ensure (target n node) old

/-- **The nodes of a graph are those of its definitions and of what they call.** -/
theorem forall_node_assemble {numbers : List Nat}
    (own : ∀ d ∈ numbers.filterMap ix.definition?, P (definitionNode d))
    (called : ∀ d ∈ numbers.filterMap ix.definition?, ∀ site ∈ d.sites,
      ∀ t ∈ ix.resolve algorithm made d site, ∀ n, ix.nodeOf t = some n → P n) :
    ∀ n ∈ (ix.assemble algorithm made numbers).value.nodes, P n := by
  have first : ∀ n ∈ (addDefinitions .empty (numbers.filterMap ix.definition?)).value.nodes, P n :=
    forall_node_addDefinitions own fun n here => absurd here (Array.not_mem_empty n)
  refine List.foldlRecOn (motive := fun g : Graph => ∀ n ∈ g.nodes, P n) _ _ first
    fun g old d chosen => ?_
  unfold addCalls
  split
  · exact old
  · refine List.foldlRecOn (motive := fun g : Graph => ∀ n ∈ g.nodes, P n) _ _ old
      fun g old site inSites => ?_
    refine List.foldlRecOn (motive := fun g : Graph => ∀ n ∈ g.nodes, P n) _ _ old
      fun g old t means => ?_
    exact forall_node_addCall (called d chosen site inSites t means) old

/-! ### Edges -/

/-- Definitions whose calls mean no others. -/
def SelfContained (ix : Index) (algorithm : Algorithm) (made : Option (List String)) (numbers : List Nat) :
    Prop :=
  ∀ i ∈ numbers, ∀ d, ix.definition? i = some d → ∀ site ∈ d.sites, ∀ j,
    .definition j ∈ ix.resolve algorithm made d site → j ∈ numbers

/-- All definitions mean no others. -/
theorem selfContained_range (ix : Index) (algorithm : Algorithm) (made : Option (List String)) :
    ix.SelfContained algorithm made (List.range ix.definitions.size) :=
  fun _ _ _ _ _ _ _ means => List.mem_range.2 (lt_of_mem_resolve means)

/-- The definitions whose calls are part of the graph that an analysis gives. -/
def included (ix : Index) (algorithm : Algorithm) (tests : Bool) : List Nat :=
  match algorithm with
  | .rta => ix.inOrder (ix.reachable (ix.entryPoints tests))
  | _ => List.range ix.definitions.size

/-- The types that an analysis takes values to be made of, if it asks for that. -/
def typesFor (ix : Index) (algorithm : Algorithm) (tests : Bool) : Option (List String) :=
  match algorithm with
  | .rta => some (ix.reachable (ix.entryPoints tests)).types
  | _ => none

/-- **The graph that an analysis gives is assembled from definitions that mean no others.** -/
theorem assembled_callGraph? {tests : Bool} (built : (ix.callGraph? algorithm tests).value = some g) :
    ix.SelfContained algorithm (ix.typesFor algorithm tests) (ix.included algorithm tests) ∧
      ∃ declared, g = { (ix.assemble algorithm (ix.typesFor algorithm tests)
        (ix.included algorithm tests)).value with roots := declared } := by
  by_cases rta : algorithm = .rta
  · subst rta
    rw [value_callGraph?] at built
    split at built
    · cases built
    · obtain rfl := Option.some.inj built
      have least := ix.least_reachable (ix.entryPoints tests)
      refine ⟨fun i here d found site inSites j means => ?_, _,
        (Graph.foldl_declareRoot _ _).choose_spec⟩
      exact mem_inOrder.2 ⟨lt_of_mem_resolve means,
        least.closed.called i (mem_inOrder.1 here).2 d found site inSites j means⟩
  · have plain : ix.typesFor algorithm tests = none ∧
        ix.included algorithm tests = List.range ix.definitions.size ∧
        some (ix.assemble algorithm none (List.range ix.definitions.size)).value = some g := by
      cases algorithm with
      | rta => exact absurd rfl rta
      | «static» | cha | imported => exact ⟨rfl, rfl, built⟩
    obtain ⟨types, numbers, all⟩ := plain
    obtain rfl := Option.some.inj all
    rw [types, numbers]
    exact ⟨ix.selfContained_range algorithm none, _, rfl⟩

/-- An edge of an assembled graph is a call of one of the definitions. -/
theorem mem_edges_assemble {numbers : List Nat} (ready : ix.SelfContained algorithm made numbers)
    {call : String × String × Call} :
    (∃ e ∈ (ix.assemble algorithm made numbers).value.edges,
      readEdge (ix.assemble algorithm made numbers).value e = call) ↔
    ∃ d ∈ numbers.filterMap ix.definition?, ∃ site ∈ d.sites,
      ∃ t ∈ ix.resolve algorithm made d site,
        (d.id, ix.targetId t, { site := some ⟨d.file, site.line⟩ }) = call := by
  obtain ⟨first, _, assembled⟩ := assembled_assemble ready
  simp only [← Array.mem_toList_iff, ← List.mem_map]
  rw [assembled.calls]
  simp only [callsOf, List.mem_flatMap, List.mem_map]

/-- **A node with the id of a method call that matches nothing is that of such a call.** -/
theorem exists_unresolvedNode {sources : List SourceFile} {on : Source.Features}
    (known : ix = ofSources sources on) {numbers : List Nat} {n : Node} (name : Name)
    (here : n ∈ (ix.assemble algorithm made numbers).value.nodes) (stray : n.id = strayId name.text) :
    ∃ text, n = unresolvedNode text := by
  have own : ∀ i d, ix.definition? i = some d → d.id ≠ strayId name.text := fun i d found =>
    id_ne_of_definition? (known ▸ found) name
  refine forall_node_assemble (P := fun n => n.id = strayId name.text → ∃ text, n = unresolvedNode text)
    (fun d chosen same => ?_) (fun d chosen site inSites t means n node same => ?_) n here stray
  · obtain ⟨i, _, found⟩ := List.mem_filterMap.1 chosen
    exact absurd same (own i d found)
  · cases t with
    | definition j =>
      obtain ⟨d, found, rfl⟩ := Option.map_eq_some_iff.1 node
      exact absurd same (own j d found)
    | standard f =>
      cases node
      exact absurd same (id_ne_of_told (told_of_mem_resolve (Or.inl means)) name)
    | external f =>
      cases node
      exact absurd same (id_ne_of_told (told_of_mem_resolve (Or.inr means)) name)
    | unresolved text =>
      cases node
      exact ⟨text, rfl⟩

/-- **The edges of a graph that end at functions are edges of the one that takes all methods into
account.** -/
theorem exists_edge_cha {sources : List SourceFile} {on : Source.Features}
    (known : ix = ofSources sources on) {tests : Bool}
    (built : (ix.callGraph? algorithm tests).value = some g) :
    ∃ c, (ix.callGraph? .cha tests).value = some c ∧ ∀ e ∈ g.edges, ∀ n,
      g.node? e.callee = some n → (∀ text, n ≠ unresolvedNode text) →
        ∃ e' ∈ c.edges, readEdge c e' = readEdge g e := by
  obtain ⟨ready, declared, rfl⟩ := assembled_callGraph? built
  generalize ix.typesFor algorithm tests = made, ix.included algorithm tests = numbers at ready ⊢
  refine ⟨_, rfl, fun e here n node resolved => ?_⟩
  obtain ⟨d, chosen, site, inSites, t, means, reads⟩ := (mem_edges_assemble ready).1 ⟨e, here, rfl⟩
  obtain ⟨i, _, found⟩ := List.mem_filterMap.1 chosen
  rcases mem_resolve_cha means with same | ⟨name, onSelf, target, rfl⟩
  · refine (mem_edges_assemble (ix.selfContained_range .cha none)).2
      ⟨d, List.mem_filterMap.2 ⟨i, List.mem_range.2 ?_, found⟩, site, inSites, t, same, reads⟩
    exact (Array.getElem?_eq_some_iff.1 found).1
  · -- A method call that matches nothing ends at a node of its own.
    obtain ⟨o, modulePath, owner, exported, f, rfl⟩ :=
      exists_define_of_definition? (known ▸ found)
    obtain ⟨plain, rfl⟩ : ∃ plain : Name, name = plain.text := by
      have here : ⟨.method name onSelf, site.line⟩ ∈ Source.Code.listSites f.body := by
        rw [← target]
        exact inSites
      exact Source.exists_name_of_mem_listSites f.body here
    have id : n.id = strayId plain.text := by
      have callee : (ix.assemble algorithm made numbers).value.idOf e.callee = strayId plain.text :=
        (congrArg (·.2.1) reads).symm
      have there : (ix.assemble algorithm made numbers).value.node? e.callee = some n := node
      rwa [Graph.idOf, there] at callee
    have inNodes : n ∈ (ix.assemble algorithm made numbers).value.nodes :=
      Array.mem_of_getElem? node
    obtain ⟨text, same⟩ := exists_unresolvedNode known plain inNodes id
    exact absurd same (resolved text)

end Index

end CallGraph.Program

namespace CallGraph.Builder

open Program (Index SourceFile unresolvedNode)

/-- **The analyses are ordered by precision.** If an analysis of some sources gives a graph, the one
that takes every method of a name into account gives one too, and each edge of the first that ends
at a function is an edge of the second: between the same ids, and written in the same place. -/
theorem analyse_within_cha {r : BuildRequest} {sources : List SourceFile} {g : Graph}
    (built : (analyse r sources).run.value = .ok g) :
    ∃ c, (analyse { r with algorithm := .cha } sources).run.value = .ok c ∧ ∀ e ∈ g.edges, ∀ n,
      g.node? e.callee = some n → (∀ text, n ≠ unresolvedNode text) →
        ∃ e' ∈ c.edges, c.idOf e'.caller = g.idOf e.caller ∧ c.idOf e'.callee = g.idOf e.callee ∧
          e'.call = e.call := by
  rw [value_analyse] at built
  split at built
  · cases built
  · rename_i parsed
    split at built
    · rename_i found given
      cases built
      obtain ⟨c, gives, within⟩ := Index.exists_edge_cha rfl given
      refine ⟨c, ?_, fun e here n node resolved => ?_⟩
      · rw [value_analyse, if_neg parsed, gives]
      · obtain ⟨e', there, same⟩ := within e here n node resolved
        simp only [Index.readEdge, Prod.mk.injEq] at same
        exact ⟨e', there, same⟩
    · cases built

theorem analyse_within_cha_square : ∃ g c,
    (analyse { oneSource with algorithm := .static } square).run.value = .ok g ∧
    (analyse { oneSource with algorithm := .cha } square).run.value = .ok c ∧
    g.edges.size = 1 ∧ ∀ e ∈ g.edges, ∀ n,
      g.node? e.callee = some n → (∀ text, n ≠ unresolvedNode text) →
        ∃ e' ∈ c.edges, c.idOf e'.caller = g.idOf e.caller ∧ c.idOf e'.callee = g.idOf e.callee ∧
          e'.call = e.call := by
  have known : ((analyse { oneSource with algorithm := .static } square).run.value.toOption.map
      fun g => g.edges.size) = some 1 := by decide +kernel
  cases given : (analyse { oneSource with algorithm := .static } square).run.value with
  | error _ =>
    rw [given] at known
    cases known
  | ok g =>
    rw [given] at known
    obtain ⟨c, gives, within⟩ := analyse_within_cha given
    exact ⟨g, c, rfl, gives, Option.some.inj known, within⟩

end CallGraph.Builder
