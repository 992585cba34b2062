import CallGraph.Program.Positions
import CallGraph.Proofs.Precision

/-!
**Every call is resolved.**

To resolve a call is to go into lists: the names of a path, the names that an import stands for, the
definitions of the program. `Program.Positions` has a function that fails where such a list is too
short; it never does. A path that is written has a first name, and so has what it means with its
imports: a tree of imports brings in no name that stands for an empty path, and the module that a
path is written in has a name to start from.

* `UseTree.ne_nil_of_mem_bindings`, `Index.importsNamed_ofSources` — what imports stand for;
* `Index.ImportsNamed.expand_ne_nil` — a path with its imports;
* `Positions.resolve?_eq`, `Positions.nodeOf?_eq` — no step fails;
* `Index.Settled`, `Index.ImportsNamed.settled` — what is sure of the targets of a call;
* `Builder.analyse_settled` — the same for the index of any sources, and what follows for the edges
  of a graph.
-/

namespace CallGraph.Source

/-! ### What imports stand for -/

mutual

/-- **What an import brings in stands for a path with a name in it.** A bare `self` stands for the
names above it, and brings in nothing where there are none. -/
theorem UseTree.ne_nil_of_mem_bindings (above : List String) (t : UseTree)
    {b : String × List String} (here : b ∈ t.bindings above) : b.2 ≠ [] := by
  match t with
  | .inside _ tree =>
    rw [bindings] at here
    exact ne_nil_of_mem_bindings _ tree here
  | .leaf name =>
    rw [bindings] at here
    split at here
    · obtain ⟨last, known, rfl⟩ := Option.map_eq_some_iff.1 (Option.mem_toList.1 here)
      rintro rfl
      cases known
    · cases List.mem_singleton.1 here
      exact List.append_ne_nil_of_right_ne_nil _ (List.cons_ne_nil _ _)
  | .renamed _ _ =>
    rw [bindings] at here
    cases List.mem_singleton.1 here
    exact List.append_ne_nil_of_right_ne_nil _ (List.cons_ne_nil _ _)
  | .everything =>
    rw [bindings] at here
    cases here
  | .group trees =>
    rw [bindings] at here
    exact ne_nil_of_mem_listBindings above trees here

/-- What several imports bring in. -/
theorem UseTree.ne_nil_of_mem_listBindings (above : List String) (trees : List UseTree)
    {b : String × List String} (here : b ∈ listBindings above trees) : b.2 ≠ [] := by
  match trees with
  | [] =>
    rw [listBindings] at here
    cases here
  | t :: rest =>
    rw [listBindings] at here
    rcases List.mem_append.1 here with first | later
    · exact ne_nil_of_mem_bindings above t first
    · exact ne_nil_of_mem_listBindings above rest later

end

/-- Facts whose imports stand for paths with a name in them. -/
def Facts.ImportsNamed (facts : Facts) : Prop :=
  ∀ i ∈ facts.imports, i.path ≠ []

namespace Facts

theorem importsNamed_of_none {facts : Facts} (none : facts.imports = []) : facts.ImportsNamed := by
  intro i here
  rw [none] at here
  cases here

theorem ImportsNamed.append {a b : Facts} (first : a.ImportsNamed) (second : b.ImportsNamed) :
    (a ++ b).ImportsNamed :=
  fun i here => (List.mem_append.1 here).elim (first i) (second i)

theorem importsNamed_concat {parts : List Facts} (all : ∀ p ∈ parts, p.ImportsNamed) :
    (concat parts).ImportsNamed :=
  List.foldlRecOn (motive := ImportsNamed) _ _ (importsNamed_of_none rfl) fun _ before p here =>
    before.append (all p here)

end Facts

mutual

/-- The imports of an item. -/
theorem Item.importsNamed (o : Origin) (modulePath : String) (i : Item) :
    (i.facts o modulePath).ImportsNamed := by
  match i with
  | .function _ | .trait _ _ _ _ =>
    rw [facts]
    split <;> exact Facts.importsNamed_of_none rfl
  | .implementation _ _ _ _ =>
    rw [facts, implementationFacts]
    split
    · split <;> exact Facts.importsNamed_of_none rfl
    · exact Facts.importsNamed_of_none rfl
  | .submodule _ _ none | .other =>
    rw [facts]
    exact Facts.importsNamed_of_none rfl
  | .submodule _ name (some items) =>
    rw [facts]
    split
    · exact Item.listImportsNamed o _ items
    · exact Facts.importsNamed_of_none rfl
  | .imports _ tree =>
    rw [facts]
    split
    · intro m here
      obtain ⟨b, listed, rfl⟩ := List.mem_map.1 here
      exact UseTree.ne_nil_of_mem_bindings [] tree listed
    · exact Facts.importsNamed_of_none rfl

/-- The imports of several items. -/
theorem Item.listImportsNamed (o : Origin) (modulePath : String) (items : List Item) :
    (Item.listFacts o modulePath items).ImportsNamed := by
  match items with
  | [] =>
    rw [listFacts]
    exact Facts.importsNamed_of_none rfl
  | i :: rest =>
    rw [listFacts]
    exact (Item.importsNamed o modulePath i).append (Item.listImportsNamed o modulePath rest)

end

/-- The imports of a text. -/
theorem Facts.importsNamed_of_ofText? {o : Origin} {modulePath text : String} {facts : Facts}
    (given : Facts.ofText? o modulePath text = some facts) : facts.ImportsNamed := by
  obtain ⟨t, _, rfl⟩ := Option.map_eq_some_iff.1 given
  unfold SourceTree.facts
  split
  · exact Item.listImportsNamed o modulePath t.items
  · exact Facts.importsNamed_of_none rfl

end CallGraph.Source

namespace CallGraph.Program

open Source (Definition Site Facts Features)

/-- A path that does not start with a keyword is as it is written. -/
theorem absolute_of_plain {first modulePath : String} {rest : List String}
    (notCrate : first ≠ "crate") (notSelf : first ≠ "self") (notSuper : first ≠ "super") :
    absolute (first :: rest) modulePath = first :: rest := by
  unfold absolute
  split
  · rename_i same
    cases same
    exact absurd rfl notCrate
  · rename_i same
    cases same
    exact absurd rfl notSelf
  · rename_i same
    cases same
    exact absurd rfl notSuper
  · rfl

theorem climb_ne_nil {base : List String} (names : List String) (nonempty : base ≠ []) :
    climb base names ≠ [] := by
  induction names generalizing base with
  | nil => exact List.append_ne_nil_of_left_ne_nil nonempty _
  | cons name rest hyp =>
    unfold climb
    split
    · rename_i same
      cases same
      refine hyp ?_
      split
      · refine List.ne_nil_of_length_pos ?_
        rw [List.length_dropLast]
        omega
      · exact nonempty
    · exact List.append_ne_nil_of_left_ne_nil nonempty _

/-- **A path that is not empty is not empty from the crate on**: the module that it is written in
has a name. -/
theorem absolute_ne_nil {names : List String} (modulePath : String) (nonempty : names ≠ []) :
    absolute names modulePath ≠ [] := by
  have base := ModulePath.segments_ne_nil modulePath
  unfold absolute
  split
  · refine List.append_ne_nil_of_left_ne_nil ?_ _
    simpa using base
  · exact List.append_ne_nil_of_left_ne_nil base _
  · exact climb_ne_nil _ base
  · exact nonempty

/-- **Every import stands for a path with a name in it.** -/
def Index.ImportsNamed (ix : Index) : Prop :=
  ∀ i ∈ ix.imports, i.path ≠ []

theorem Index.importsNamed_ofSources (sources : List SourceFile) (on : Features) :
    (ofSources sources on).ImportsNamed := by
  have facts : (Facts.concat (sources.filterMap fun s =>
      Facts.ofText? { file := s.path, on := on } s.modulePath s.content)).ImportsNamed := by
    refine Facts.importsNamed_concat fun p here => ?_
    obtain ⟨s, _, given⟩ := List.mem_filterMap.1 here
    exact Facts.importsNamed_of_ofText? given
  intro i here
  obtain ⟨written, listed, rfl⟩ := List.mem_map.1 here
  exact absolute_ne_nil _ (facts written listed)

/-- **A path that is not empty is not empty with its imports.** -/
theorem Index.ImportsNamed.expand_ne_nil {ix : Index} (named : ix.ImportsNamed)
    {names : List String} (modulePath : String) (nonempty : names ≠ []) :
    ix.expand names modulePath ≠ [] := by
  obtain ⟨first, rest, rfl⟩ := List.exists_cons_of_ne_nil nonempty
  unfold expand
  dsimp only
  split
  · rename_i path imported
    obtain ⟨i, found, rfl⟩ := Option.map_eq_some_iff.1 imported
    have listed := List.mem_reverse.1 (List.mem_of_find?_eq_some found)
    exact List.append_ne_nil_of_left_ne_nil (named i listed) _
  · exact absolute_ne_nil modulePath nonempty

/-- What a path means that does not start with `Self`. -/
theorem Index.pathTargets_cons {ix : Index} {d : Definition} {first : String} {rest : List String}
    (own : first ≠ "Self") : ix.pathTargets d (first :: rest) =
      if (ix.expand (first :: rest) d.modulePath).isEmpty then []
      else ix.resolveNames (ix.expand (first :: rest) d.modulePath) d.modulePath d.crate := by
  unfold pathTargets
  split
  · rename_i same
    cases same
  · rename_i same
    cases same
    exact absurd rfl own
  · split
    · rename_i empty
      rw [empty]
      rfl
    · rename_i nonempty
      rw [if_neg (mt List.isEmpty_iff.1 nonempty)]

namespace Positions

/-! ### Steps that do not fail -/

section

variable {α : Type} {xs : List α}

theorem from?_one (a : α) (rest : List α) : from? (a :: rest) 1 = some rest := by
  rw [from?, if_pos (by simp), List.drop_one, List.tail_cons]

theorem back?_append (before after : List α) (a : α) :
    back? (before ++ a :: after) (after.length + 1) = some a := by
  unfold back?
  rw [List.length_append, List.length_cons, if_pos (Nat.le_add_left _ _), Nat.add_sub_cancel,
    List.getElem?_append_right (Nat.le_refl _), Nat.sub_self, List.getElem?_cons_zero]

theorem upTo?_of_le {n : Nat} (inRange : n ≤ xs.length) : upTo? xs n = some (xs.take n) :=
  if_pos inRange

/-- A filter whose test does not fail. -/
theorem filter?_eq {test : α → Option Bool} {passes : α → Bool}
    (known : ∀ a ∈ xs, test a = some (passes a)) : filter? test xs = some (xs.filter passes) := by
  induction xs with
  | nil => rfl
  | cons a rest hyp =>
    obtain ⟨first, others⟩ := List.forall_mem_cons.1 known
    rw [filter?, first, hyp others, List.filter_cons]
    rfl

end

/-! ### Paths from the crate on -/

theorem climb?_eq (base names : List String) : climb? base names = some (climb base names) := by
  induction names generalizing base with
  | nil =>
    rw [climb?, if_neg (by simp)]
    rfl
  | cons name rest hyp =>
    by_cases up : name = "super"
    · subst up
      rw [climb?, if_pos (by simp)]
      split
      · rename_i behind step
        rw [from?_one] at step
        cases step
        exact hyp _
      · rename_i step
        rw [from?_one] at step
        cases step
    · rw [climb?, if_neg (by simpa using up)]
      unfold climb
      split
      · rename_i same
        cases same
        exact absurd rfl up
      · rfl

theorem absolute?_eq (names : List String) (modulePath : String) :
    absolute? names modulePath = some (absolute names modulePath) := by
  cases names with
  | nil => rfl
  | cons first rest =>
    unfold absolute?
    simp only [List.getElem?_cons_zero, from?_one, Option.map_some, climb?_eq]
    split
    · rename_i same
      cases same
      rfl
    · rename_i same
      cases same
      rfl
    · rename_i same
      cases same
      rfl
    · rename_i notCrate notSelf notSuper
      rw [absolute_of_plain (fun same => notCrate (congrArg some same))
        (fun same => notSelf (congrArg some same)) fun same => notSuper (congrArg some same)]

theorem expand?_eq (ix : Index) (names : List String) (modulePath : String) :
    expand? ix names modulePath = some (ix.expand names modulePath) := by
  unfold expand? Index.expand
  cases names with
  | nil => rfl
  | cons first rest =>
    simp only [List.getElem?_cons_zero, from?_one, Option.map_some, absolute?_eq]
    cases ix.imported? modulePath first <;> rfl

/-! ### Paths -/

section

variable {ix : Index} {d : Definition}

/-- Numbers that are listed are those of definitions. -/
theorem filter?_definition_eq {wanted : Definition → Bool} (passes : Definition → Bool) :
    filter? (fun i => (ix.definition? i).map passes) (ix.select wanted) =
      some ((ix.select wanted).filter fun i => (ix.definition? i).any passes) := by
  refine filter?_eq fun i here => ?_
  obtain ⟨d, found, _⟩ := Index.mem_select.1 here
  rw [found]
  rfl

theorem uniqueFunction?_eq (name crate : String) :
    uniqueFunction? ix name crate = some (ix.uniqueFunction? name crate) := by
  have inCrate : filter? (fun i => (ix.definition? i).map (·.crate == crate))
      (ix.functionsNamed name) =
        some ((ix.functionsNamed name).filter fun i => (ix.definition? i).any (·.crate == crate)) :=
    filter?_definition_eq fun d => d.crate == crate
  unfold uniqueFunction?
  dsimp only
  rw [inCrate]
  rfl

/-- A path that is not empty has a last name, and one before it unless it is the only one. -/
theorem byLastNames?_eq {path : List String} (nonempty : path ≠ []) (crate : String) :
    byLastNames? ix path crate = some (ix.byLastNames path crate) := by
  obtain ⟨before, name, rfl⟩ := (List.eq_nil_or_concat path).resolve_left nonempty
  unfold byLastNames? Index.byLastNames
  rw [List.concat_eq_append, List.reverse_append, List.reverse_singleton]
  obtain rfl | ⟨front, type, rfl⟩ := List.eq_nil_or_concat before
  · show (uniqueFunction? ix name crate).bind _ = _
    rw [uniqueFunction?_eq]
    rfl
  · have several : ¬ (front.concat type ++ [name]).length = 1 := by simp
    have last : back? (front.concat type ++ [name]) 1 = some name := back?_append _ [] name
    have second : back? (front.concat type ++ [name]) 2 = some type := by
      rw [List.concat_eq_append, List.append_assoc]
      exact back?_append front [name] type
    rw [if_neg several, last, second, List.concat_eq_append, List.reverse_append]
    rfl

theorem resolveNames?_eq {path : List String} (nonempty : path ≠ []) (modulePath crate : String) :
    resolveNames? ix path modulePath crate = some (ix.resolveNames path modulePath crate) := by
  obtain ⟨first, rest, rfl⟩ := List.exists_cons_of_ne_nil nonempty
  have last : byLastNames? ix (first :: rest) crate = some (ix.byLastNames (first :: rest) crate) :=
    byLastNames?_eq nonempty crate
  have behind := from?_one first rest
  have head : (first :: rest)[0]? = some first := rfl
  unfold resolveNames?
  rw [head, last, behind]
  simp only [Option.bind_eq_bind, Option.bind_some]
  unfold Index.resolveNames Index.leadsOut isPlatformPath
  simp only [List.head?_cons, Option.any_some, Option.bind_some, List.drop_one, List.tail_cons]
  cases platformCrates.contains first with
  | true => rfl
  | false =>
    cases (Index.candidates (first :: rest) modulePath crate).findSome? ix.function? with
    | some i => rfl
    | none =>
      cases ix.byLastNames (first :: rest) crate with
      | cons i more => rfl
      | nil =>
        cases prelude.lookup first with
        | some full => rfl
        | none => exact (apply_ite some _ _ _).symm

theorem ownTargets?_eq (rest : List String) :
    ownTargets? ix d ("Self" :: rest) = some (ix.pathTargets d ("Self" :: rest)) := by
  unfold ownTargets? Index.pathTargets
  cases d.receiver with
  | none => rfl
  | some type =>
    match rest with
    | [] => rfl
    | [name] => rfl
    | _ :: _ :: _ => rfl

/-- The names of a path are looked into only if the path, with its imports, is not empty. -/
theorem pathTargets?_eq (names : List String) :
    pathTargets? ix d names = some (ix.pathTargets d names) := by
  cases names with
  | nil => rfl
  | cons first rest =>
    unfold pathTargets?
    rw [List.getElem?_cons_zero, expand?_eq]
    by_cases own : first = "Self"
    · subst own
      exact ownTargets?_eq rest
    · rw [Index.pathTargets_cons own]
      simp only [List.isEmpty_cons, Option.bind_eq_bind, Option.bind_some, if_neg own]
      split
      · rename_i never
        cases never
      · split
        · rfl
        · rename_i nonempty
          exact resolveNames?_eq (mt List.isEmpty_iff.2 nonempty) d.modulePath d.crate

theorem resolvePath?_eq (names : List String) :
    resolvePath? ix d names = some (ix.resolvePath d names) := by
  rw [resolvePath?, pathTargets?_eq]
  rfl

/-! ### Macros and methods -/

/-- A macro with a path of several names needs that path not to be empty, whatever it is imported
as. -/
theorem resolveMacro?_eq {names : List String} {modulePath : String}
    (nonempty : names ≠ [] → ix.expand names modulePath ≠ []) :
    resolveMacro? ix names modulePath = some (ix.resolveMacro names modulePath) := by
  unfold resolveMacro? Index.resolveMacro
  match names with
  | [] => rfl
  | [name] => exact (apply_ite some _ _ _).symm
  | first :: second :: rest =>
    obtain ⟨head, behind, path⟩ := List.exists_cons_of_ne_nil (nonempty nofun)
    dsimp only
    rw [expand?_eq, path]
    rfl

theorem methodChoices?_eq (algorithm : Algorithm) (made : Option (List String)) (name : String) :
    methodChoices? ix algorithm made name = some (ix.methodChoices algorithm made name) := by
  unfold methodChoices? Index.methodChoices
  cases algorithm with
  | rta =>
    cases made with
    | none => rfl
    | some types => exact filter?_definition_eq (ix.isMade types)
  | _ => rfl

theorem resolveMethod?_eq (algorithm : Algorithm) (made : Option (List String)) (name : String)
    (onSelf : Bool) : resolveMethod? ix algorithm made d name onSelf =
      some (ix.resolveMethod algorithm made d name onSelf) := by
  unfold resolveMethod? Index.resolveMethod Index.methodTargets
  rw [methodChoices?_eq]
  cases ix.ownMethods d name onSelf with
  | nil => rfl
  | cons i more => rfl

/-! ### Calls -/

/-- **Whatever a call is, no position is looked into that is not there**, if every import stands for
a path with a name in it. -/
theorem resolve?_eq (named : ix.ImportsNamed) (algorithm : Algorithm) (made : Option (List String))
    (site : Site) : resolve? ix algorithm made d site = some (ix.resolve algorithm made d site) := by
  unfold resolve? Index.resolve
  cases site.target with
  | path names => exact resolvePath?_eq names
  | argument names =>
    dsimp only
    rw [resolvePath?_eq]
    rfl
  | expansion names =>
    dsimp only
    rw [resolveMacro?_eq fun nonempty => named.expand_ne_nil d.modulePath nonempty]
    rfl
  | method name onSelf => exact resolveMethod?_eq algorithm made name onSelf

/-! ### Nodes -/

theorem receiver?_eq (f : Foreign) : receiver? f = some f.receiver := by
  obtain ⟨path⟩ := f
  obtain ⟨back, rfl⟩ : ∃ back : List String, path = back.reverse := ⟨_, path.reverse_reverse.symm⟩
  unfold receiver? Foreign.receiver
  dsimp only
  rw [List.reverse_reverse, List.length_reverse]
  match back with
  | [] | [_] | [_, _] => rfl
  | name :: type :: above :: rest =>
    have second : back? (name :: type :: above :: rest).reverse 2 = some type := by
      rw [List.reverse_cons, List.reverse_cons, List.append_assoc]
      exact back?_append (above :: rest).reverse [name] type
    rw [second, if_pos (by simp)]
    rfl

theorem modulePath?_eq {f : Foreign} (nonempty : f.path ≠ []) :
    modulePath? f = some f.modulePath := by
  have some : 1 ≤ f.path.length := List.length_pos_iff.2 nonempty
  unfold modulePath? Foreign.modulePath
  rw [receiver?_eq]
  simp only [Option.bind_eq_bind, Option.bind_some]
  rw [upTo?_of_le (by omega)]
  rfl

theorem foreignNode?_eq {f : Foreign} (nonempty : f.path ≠ []) (isStd : Bool) :
    foreignNode? f isStd = some (foreignNode f isStd) := by
  rw [foreignNode?, modulePath?_eq nonempty, receiver?_eq]
  rfl

theorem nodeOf?_eq {t : Target} (named : ∀ f, t = .standard f ∨ t = .external f → f.path ≠ []) :
    nodeOf? ix t = ix.nodeOf t := by
  cases t with
  | definition i | unresolved text => rfl
  | standard f => exact foreignNode?_eq (named f (Or.inl rfl)) true
  | external f => exact foreignNode?_eq (named f (Or.inr rfl)) false

end

end Positions

namespace Index

variable {ix : Index} {algorithm : Algorithm} {made : Option (List String)} {d : Definition}
  {site : Site} {f : Foreign}

/-! ### Targets -/

theorem withBang_ne_nil {names : List String} (nonempty : names ≠ []) : withBang names ≠ [] := by
  unfold withBang
  split
  · rename_i empty
    exact absurd (List.reverse_eq_nil_iff.1 empty) nonempty
  · exact List.append_ne_nil_of_right_ne_nil _ (List.cons_ne_nil _ _)

/-- A macro that is known to be elsewhere has a path with a name in it. -/
theorem ImportsNamed.ne_nil_of_resolveMacro (named : ix.ImportsNamed) {names : List String}
    {modulePath : String} (means : .standard f = ix.resolveMacro names modulePath ∨
      .external f = ix.resolveMacro names modulePath) : f.path ≠ [] := by
  unfold resolveMacro at means
  split at means
  · simp at means
  · split at means
    · simp only [Target.standard.injEq, reduceCtorEq, or_false] at means
      rw [means]
      exact List.cons_ne_nil _ _
    · simp at means
  · rename_i several _
    have path := withBang_ne_nil (named.expand_ne_nil modulePath several)
    dsimp only at means
    split at means
    · simp only [Target.standard.injEq, reduceCtorEq, or_false] at means
      rwa [means]
    · simp only [Target.external.injEq, reduceCtorEq, false_or] at means
      rwa [means]

/-- **A call refers to functions elsewhere by paths with names in them.** -/
theorem ImportsNamed.ne_nil_of_mem_resolve (named : ix.ImportsNamed)
    (means : .standard f ∈ ix.resolve algorithm made d site ∨
      .external f ∈ ix.resolve algorithm made d site) : f.path ≠ [] := by
  unfold resolve at means
  split at means
  · exact (leadsElsewhere_of_mem_resolvePath means).ne_nil
  · simp only [List.mem_filter, Target.definition?, Option.isSome_none, Bool.false_eq_true,
      and_false, or_false] at means
  · simp only [List.mem_singleton] at means
    exact named.ne_nil_of_resolveMacro means
  · simp only [resolveMethod, Target.orUnresolved] at means
    split at means <;> simp at means

theorem orUnresolved_ne_nil (text : String) (found : List Target) :
    Target.orUnresolved text found ≠ [] := by
  unfold Target.orUnresolved
  split
  · exact List.cons_ne_nil _ _
  · rename_i some
    exact mt List.isEmpty_iff.2 some

/-- **A call means something**, unless it is a function that is handed over. -/
theorem resolve_ne_nil (called : ∀ names, site.target ≠ .argument names) :
    ix.resolve algorithm made d site ≠ [] := by
  unfold resolve
  cases target : site.target with
  | path names => exact orUnresolved_ne_nil _ _
  | argument names => exact absurd target (called names)
  | expansion names => exact List.cons_ne_nil _ _
  | method name onSelf => exact orUnresolved_ne_nil _ _

/-- **A function that is handed over is a definition.** -/
theorem exists_definition_of_mem_resolve {names : List String} {t : Target}
    (handedOver : site.target = .argument names) (means : t ∈ ix.resolve algorithm made d site) :
    ∃ i, t = .definition i := by
  unfold resolve at means
  rw [handedOver] at means
  have known := (List.mem_filter.1 means).2
  cases t with
  | definition i => exact ⟨i, rfl⟩
  | standard _ | external _ | unresolved _ => cases known

/-- **What is sure of the targets of a call**, whatever it is and whatever the analysis. -/
structure Settled (ix : Index) (algorithm : Algorithm) (made : Option (List String))
    (d : Definition) (site : Site) : Prop where
  /-- No position is looked into that is not there. -/
  positions : Positions.resolve? ix algorithm made d site = some (ix.resolve algorithm made d site)
  /-- A path, a macro or a method means something. -/
  answered : (∀ names, site.target ≠ .argument names) → ix.resolve algorithm made d site ≠ []
  /-- A function that is handed over means definitions, if anything. -/
  handedOver : ∀ names, site.target = .argument names →
    ∀ t ∈ ix.resolve algorithm made d site, ∃ i, t = .definition i
  /-- The definitions are those of the program. -/
  inRange : ∀ i, .definition i ∈ ix.resolve algorithm made d site → i < ix.definitions.size
  /-- Each target gets a node, for which no position is looked into that is not there. -/
  nodes : ∀ t ∈ ix.resolve algorithm made d site, ∃ n,
    ix.nodeOf t = some n ∧ Positions.nodeOf? ix t = some n

/-- **Every call is settled** if every import stands for a path with a name in it. -/
theorem ImportsNamed.settled (named : ix.ImportsNamed) (algorithm : Algorithm)
    (made : Option (List String)) (d : Definition) (site : Site) :
    ix.Settled algorithm made d site where
  positions := Positions.resolve?_eq named algorithm made site
  answered := resolve_ne_nil
  handedOver _ target _ means := exists_definition_of_mem_resolve target means
  inRange _ means := lt_of_mem_resolve means
  nodes t means := by
    have node : Positions.nodeOf? ix t = ix.nodeOf t := by
      refine Positions.nodeOf?_eq fun f elsewhere => ?_
      rcases elsewhere with rfl | rfl
      · exact named.ne_nil_of_mem_resolve (Or.inl means)
      · exact named.ne_nil_of_mem_resolve (Or.inr means)
    rw [node]
    cases t with
    | definition i =>
      have there : ix.definition? i = some _ := Array.getElem?_eq_getElem (lt_of_mem_resolve means)
      have same := congrArg (Option.map definitionNode) there
      exact ⟨_, same, same⟩
    | standard f | external f | unresolved text => exact ⟨_, rfl, rfl⟩

end Index

end CallGraph.Program

namespace CallGraph.Builder

open Program (Index SourceFile)
open Source (Definition)

/-- The graph of an analysis is that of the index. -/
theorem callGraph?_of_analyse {r : BuildRequest} {sources : List SourceFile} {g : Graph}
    (built : (analyse r sources).run.value = .ok g) :
    ((Index.ofSources sources { tests := r.includeTests, names := r.tags }).callGraph? r.algorithm
      r.includeTests).value = some g := by
  rw [value_analyse] at built
  split at built
  · cases built
  · split at built
    · rename_i found given
      cases built
      exact given
    · cases built

/-- **Every call of a program is resolved.** Each call of each definition is settled, whatever the
analysis and whatever types values are made of, and a path that is written has a first name with its
imports too. So each call of a definition that counts gives the graph an edge from that definition,
at the line of the call, unless it is a function that is handed over. -/
theorem analyse_settled (sources : List SourceFile) :
    (∀ on, let ix := Index.ofSources sources on
      (∀ i d, ix.definition? i = some d → ∀ site ∈ d.sites, ∀ algorithm made,
        ix.Settled algorithm made d site) ∧
      ∀ names modulePath, names ≠ [] → ∃ first rest, ix.expand names modulePath = first :: rest) ∧
    ∀ r g, (analyse r sources).run.value = .ok g →
      let ix := Index.ofSources sources { tests := r.includeTests, names := r.tags }
      ∀ i ∈ ix.included r.algorithm r.includeTests, ∀ d, ix.definition? i = some d →
        ∀ site ∈ d.sites, (∀ names, site.target ≠ .argument names) →
          ∃ e ∈ g.edges, g.idOf e.caller = d.id ∧ e.call = { site := some ⟨d.file, site.line⟩ } := by
  refine ⟨fun on => ⟨fun i d _ site _ algorithm made => ?_, fun names modulePath nonempty => ?_⟩,
    fun r g built i chosen d found site inSites called => ?_⟩
  · exact (Index.importsNamed_ofSources sources on).settled algorithm made d site
  · have path := (Index.importsNamed_ofSources sources on).expand_ne_nil modulePath nonempty
    exact List.exists_cons_of_ne_nil path
  · obtain ⟨ready, declared, rfl⟩ := Index.assembled_callGraph? (callGraph?_of_analyse built)
    obtain ⟨t, means⟩ := List.exists_mem_of_ne_nil _ (Index.resolve_ne_nil called)
    obtain ⟨e, here, reads⟩ := (Index.mem_edges_assemble ready).2
      ⟨d, List.mem_filterMap.2 ⟨i, chosen, found⟩, site, inSites, t, means, rfl⟩
    simp only [Index.readEdge, Prod.mk.injEq] at reads
    exact ⟨e, here, reads.1, reads.2.2⟩

/-- A program that calls itself by an imported name, and hands itself over. -/
def homecoming : List SourceFile :=
  [⟨"app.rs", "app", "use crate as home; fn main() \x7b home::main(home::main); \x7d"⟩]

/-- Its only definition. -/
def homecomingMain : Definition where
  id := "app::main"
  name := "main"
  modulePath := "app"
  exported := false
  file := "app.rs"
  line := 1
  isTest := false
  sites := [⟨.path ["home", "main"], 1⟩, ⟨.argument ["home", "main"], 1⟩]
  makes := []

theorem analyse_settled_homecoming : ∃ g,
    (Index.ofSources homecoming {}).definition? 0 = some homecomingMain ∧
    (analyse oneSource homecoming).run.value = .ok g ∧
    (∀ site ∈ homecomingMain.sites, ∀ algorithm made,
      (Index.ofSources homecoming {}).Settled algorithm made homecomingMain site) ∧
    (∃ first rest, (Index.ofSources homecoming {}).expand ["home", "main"] "app" = first :: rest) ∧
    ∃ e ∈ g.edges, g.idOf e.caller = "app::main" ∧ e.call = { site := some ⟨"app.rs", 1⟩ } := by
  have found : (Index.ofSources homecoming {}).definition? 0 = some homecomingMain := by
    decide +kernel
  have chosen : 0 ∈ (Index.ofSources homecoming {}).included .rta false := by decide +kernel
  have gives : (analyse oneSource homecoming).run.value.toOption.isSome = true := by decide +kernel
  cases given : (analyse oneSource homecoming).run.value with
  | error _ =>
    rw [given] at gives
    cases gives
  | ok g =>
    obtain ⟨calls, edges⟩ := analyse_settled homecoming
    refine ⟨g, found, rfl, (calls {}).1 0 _ found, (calls {}).2 _ "app" nofun, ?_⟩
    exact edges oneSource g given 0 chosen _ found _ List.mem_cons_self nofun

end CallGraph.Builder
