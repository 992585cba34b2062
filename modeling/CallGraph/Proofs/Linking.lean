import CallGraph.Proofs.LocalPaths

/-!
**Calls that are linked to several methods.**

The static analysis links a method call on any value only if a single method has the name. A call
that names the type of its method is not held to that: it is linked to all methods of that name which
belong to a type of that name, by every analysis.

* `Index.linked` — the definitions of the program that a call is linked to;
* `Index.NamesType` — a call that names the type of its method, `linked_of_namesType`;
* `linked_static_cases` — all other calls are linked to one definition at most;
* `Index.linked_several_iff` — when the static analysis links a call to several definitions;
* `Index.static_links_several` — a program in which it does.
-/

namespace CallGraph.Source

/-- The names of the path that a reference is, whether it is called or handed over. -/
def Reference.path? : Reference → Option (List String)
  | .path names | .argument names => some names
  | .method _ _ | .expansion _ => none

end CallGraph.Source

namespace CallGraph.Program

open Source (Definition Site)

namespace Target

/-- What stands in for nothing is no definition. -/
@[simp] theorem definitions_orUnresolved (text : String) (found : List Target) :
    (orUnresolved text found).filterMap definition? = found.filterMap definition? := by
  unfold orUnresolved
  split
  · rename_i none
    rw [List.isEmpty_iff.1 none]
    rfl
  · rfl

@[simp] theorem definitions_map (numbers : List Nat) :
    (numbers.map definition).filterMap definition? = numbers := by
  rw [List.filterMap_map]
  exact List.filterMap_some

end Target

namespace Index

/-- **The definitions of the program that a call is linked to**, by number. -/
def linked (ix : Index) (algorithm : Algorithm) (made : Option (List String)) (d : Definition)
    (site : Site) : List Nat :=
  (ix.resolve algorithm made d site).filterMap Target.definition?

/-- **A call in a definition that names the type of the method it means.** -/
inductive NamesType (ix : Index) (d : Definition) (site : Site) : String → String → Prop
  /-- A method is called on `self`: it belongs to the type of the caller. -/
  | onSelf {type name : String} (target : site.target = .method name true)
      (belongs : d.receiver = some type) : NamesType ix d site type name
  /-- `Self` stands in front of the name. -/
  | ofSelf {type name : String} (target : site.target.path? = some ["Self", name])
      (belongs : d.receiver = some type) : NamesType ix d site type name
  /-- A path of the program that is no function ends with the type and the name. -/
  | ofPath {first type name : String} {rest before : List String}
      (target : site.target.path? = some (first :: rest)) (other : first ≠ "Self")
      (expanded : ix.expand (first :: rest) d.modulePath = before ++ [type, name])
      (program : isPlatformPath (before ++ [type, name]) = false)
      (unknown : (candidates (before ++ [type, name]) d.modulePath d.crate).findSome? ix.function? =
        none) : NamesType ix d site type name

variable {ix : Index} {algorithm : Algorithm} {made : Option (List String)} {d : Definition}
  {site : Site} {type name : String}

/-! ### Calls of each kind -/

/-- A path is linked to what it means, handed over or called. -/
theorem linked_of_path {names : List String} (target : site.target.path? = some names) :
    ix.linked algorithm made d site = (ix.pathTargets d names).filterMap Target.definition? := by
  unfold linked resolve
  cases kind : site.target with
  | path names' =>
    rw [kind] at target
    obtain rfl : names' = names := Option.some.inj target
    exact Target.definitions_orUnresolved _ _
  | argument names' =>
    rw [kind] at target
    obtain rfl : names' = names := Option.some.inj target
    have kept : ((ix.resolvePath d names').filter fun t => t.definition?.isSome).filterMap
        Target.definition? = (ix.resolvePath d names').filterMap Target.definition? := by
      rw [List.filterMap_filter]
      refine List.filterMap_congr fun t _ => ?_
      cases t <;> rfl
    exact kept.trans (Target.definitions_orUnresolved _ _)
  | method _ _ | expansion _ =>
    rw [kind] at target
    cases target

/-- A macro is linked to no definition. -/
theorem linked_of_expansion {names : List String} (target : site.target = .expansion names) :
    ix.linked algorithm made d site = [] := by
  rw [linked, resolve, target]
  refine List.filterMap_eq_nil_iff.2 fun t here => ?_
  rw [List.mem_singleton.1 here]
  cases means : ix.resolveMacro names d.modulePath with
  | definition i => exact absurd means.symm (definition_ne_resolveMacro ix names d.modulePath i)
  | standard _ | external _ | unresolved _ => rfl

/-- A method call is linked to the methods that it may mean. -/
theorem linked_of_method {onSelf : Bool} (target : site.target = .method name onSelf) :
    ix.linked algorithm made d site = ix.methodTargets algorithm made d name onSelf := by
  rw [linked, resolve, target]
  show (ix.resolveMethod algorithm made d name onSelf).filterMap Target.definition? = _
  rw [resolveMethod, Target.definitions_orUnresolved, Target.definitions_map]

/-- The definitions that a path from the crate on means: the function that it is, or else what its
last names say. -/
theorem definitions_resolveNames {path : List String} {modulePath crate : String}
    (program : isPlatformPath path = false) :
    (ix.resolveNames path modulePath crate).filterMap Target.definition? =
      match (candidates path modulePath crate).findSome? ix.function? with
      | some i => [i]
      | none => ix.byLastNames path crate := by
  rw [resolveNames, program, if_neg Bool.false_ne_true]
  cases (candidates path modulePath crate).findSome? ix.function? with
  | some i => rfl
  | none =>
    cases ix.byLastNames path crate with
    | cons i more => exact Target.definitions_map (i :: more)
    | nil =>
      dsimp only
      split
      · rfl
      · split <;> rfl

/-- The last names of a path are a type and a method of it. -/
theorem byLastNames_append (before : List String) (type name crate : String) :
    ix.byLastNames (before ++ [type, name]) crate = ix.methodsOf type name := by
  unfold byLastNames
  rw [List.reverse_append]
  rfl

/-! ### Calls that name a type -/

/-- **A call that names a type is linked to all methods of that type and name**, if there are any,
whatever the analysis. -/
theorem linked_of_namesType (names : ix.NamesType d site type name)
    (found : ix.methodsOf type name ≠ []) :
    ix.linked algorithm made d site = ix.methodsOf type name := by
  cases names with
  | onSelf target belongs =>
    have own : ix.ownMethods d name true = ix.methodsOf type name := by
      simp only [ownMethods, belongs]
    rw [linked_of_method target, methodTargets, own, if_neg (mt List.isEmpty_iff.1 found)]
  | ofSelf target belongs =>
    have means : ix.pathTargets d ["Self", name] =
        (ix.methodsOf type name).map .definition := by
      simp only [pathTargets, belongs]
    rw [linked_of_path target, means, Target.definitions_map]
  | ofPath target other expanded program unknown =>
    rw [linked_of_path target, pathTargets_cons other, expanded, if_neg (by simp),
      definitions_resolveNames program, unknown]
    exact byLastNames_append _ type name d.crate

/-- The methods that a static call may mean are those of its own type, or a single one. -/
theorem methodTargets_static_cases (name : String) (onSelf : Bool) :
    (ix.methodTargets .static made d name onSelf).length ≤ 1 ∨
      ∃ type, onSelf = true ∧ d.receiver = some type ∧
        ix.methodTargets .static made d name onSelf = ix.methodsOf type name := by
  unfold methodTargets
  split
  · refine Or.inl ?_
    unfold methodChoices
    dsimp only
    split
    · rename_i single
      exact Nat.le_of_eq single
    · exact Nat.zero_le _
  · unfold ownMethods
    split
    · rename_i type belongs _
      exact Or.inr ⟨type, rfl, belongs, rfl⟩
    · exact Or.inl (Nat.zero_le _)

/-- The definitions that the last names of a path mean are methods of a type, or a single one. -/
theorem byLastNames_cases (path : List String) (crate : String) :
    (ix.byLastNames path crate).length ≤ 1 ∨
      ∃ before type name, path = before ++ [type, name] := by
  unfold byLastNames
  split
  · exact Or.inl (Nat.zero_le _)
  · exact Or.inl Option.length_toList_le
  · rename_i name type before reversed
    refine Or.inr ⟨before.reverse, type, name, ?_⟩
    rw [← List.reverse_reverse path, reversed]
    simp

/-- What a path means is one definition at most, unless it names a type. -/
theorem pathTargets_cases {names : List String} (target : site.target.path? = some names) :
    ((ix.pathTargets d names).filterMap Target.definition?).length ≤ 1 ∨
      ∃ type name, ix.NamesType d site type name ∧
        (ix.pathTargets d names).filterMap Target.definition? = ix.methodsOf type name := by
  cases names with
  | nil => exact Or.inl (Nat.zero_le _)
  | cons first rest =>
    by_cases own : first = "Self"
    · subst own
      unfold pathTargets
      split
      · exact Or.inl (Nat.zero_le _)
      · rename_i same
        cases same
        split
        · rename_i type name belongs
          exact Or.inr ⟨type, name, .ofSelf target belongs, Target.definitions_map _⟩
        · exact Or.inl (Nat.zero_le _)
      · rename_i other
        exact absurd rfl (other rest)
    · rw [pathTargets_cons own]
      split
      · exact Or.inl (Nat.zero_le _)
      · cases program : isPlatformPath (ix.expand (first :: rest) d.modulePath) with
        | true =>
          rw [resolveNames, if_pos program]
          exact Or.inl (Nat.zero_le _)
        | false =>
          rw [definitions_resolveNames program]
          split
          · exact Or.inl (Nat.le_refl 1)
          · rename_i unknown
            rcases ix.byLastNames_cases (ix.expand (first :: rest) d.modulePath) d.crate with
              single | ⟨before, type, name, expanded⟩
            · exact Or.inl single
            · rw [expanded] at program unknown ⊢
              exact Or.inr ⟨type, name, .ofPath target own expanded program unknown,
                byLastNames_append before type name d.crate⟩

/-- **All other calls are linked to one definition at most** by the static analysis. -/
theorem linked_static_cases (ix : Index) (made : Option (List String)) (d : Definition)
    (site : Site) : (ix.linked .static made d site).length ≤ 1 ∨
      ∃ type name, ix.NamesType d site type name ∧
        ix.linked .static made d site = ix.methodsOf type name := by
  cases kind : site.target with
  | path names | argument names =>
    have target : site.target.path? = some names := by
      rw [kind]
      rfl
    rw [linked_of_path target]
    exact pathTargets_cases target
  | expansion names =>
    rw [linked_of_expansion kind]
    exact Or.inl (Nat.zero_le _)
  | method name onSelf =>
    rw [linked_of_method kind]
    refine (ix.methodTargets_static_cases name onSelf).imp_right ?_
    rintro ⟨type, rfl, belongs, own⟩
    exact ⟨type, name, .onSelf kind belongs, own⟩

/-- **When the static analysis links a call to several definitions.** It does exactly if the call
names the type of its method, and several methods of that name belong to types of that name; then it
is linked to all of them. -/
theorem linked_several_iff (ix : Index) (made : Option (List String)) (d : Definition)
    (site : Site) :
    (1 < (ix.linked .static made d site).length ↔
      ∃ type name, ix.NamesType d site type name ∧ 1 < (ix.methodsOf type name).length) ∧
    ∀ type name, ix.NamesType d site type name → 1 < (ix.methodsOf type name).length →
      ix.linked .static made d site = ix.methodsOf type name := by
  have all : ∀ type name, ix.NamesType d site type name → 1 < (ix.methodsOf type name).length →
      ix.linked .static made d site = ix.methodsOf type name := by
    intro type name names several
    refine linked_of_namesType names fun none => ?_
    rw [none] at several
    exact absurd several (Nat.not_lt_zero 1)
  refine ⟨⟨fun several => ?_, ?_⟩, all⟩
  · rcases ix.linked_static_cases made d site with single | ⟨type, name, names, same⟩
    · exact absurd several (Nat.not_lt.2 single)
    · exact ⟨type, name, names, same ▸ several⟩
  · rintro ⟨type, name, names, several⟩
    rwa [all type name names several]

/-! ### A program -/

/-- A type that implements two traits with a method of the same name, and calls it on `self`, by
`Self` and by the name of the type. -/
def dogs : List SourceFile :=
  [⟨"src/lib.rs", "app",
    "impl Run for Dog \x7bfn go()\x7b\x7d\x7d impl Walk for Dog \x7bfn go()\x7b\x7d\x7d " ++
    "impl Dog \x7bfn play(&self)\x7bself.go(); Self::go(); Dog::go()\x7d\x7d"⟩]

/-- The method by which the type implements a trait. -/
def dogGoes (ofTrait : String) : Definition where
  id := "app::<Dog as " ++ ofTrait ++ ">::go"
  name := "go"
  modulePath := "app"
  receiver := some "Dog"
  exported := true
  file := "src/lib.rs"
  line := 1
  isTest := false
  sites := []
  makes := []

/-- The method that calls the others. -/
def dogPlays : Definition :=
  { dogGoes "Run" with
    id := "app::Dog::play"
    name := "play"
    exported := false
    sites := [⟨.method "go" true, 1⟩, ⟨.path ["Self", "go"], 1⟩, ⟨.path ["Dog", "go"], 1⟩]
    makes := ["Dog"] }

theorem ofSources_dogs : ofSources dogs {} = ofFacts
    { definitions := [dogGoes "Run", dogGoes "Walk", dogPlays]
      implementations := [("Run", "Dog"), ("Walk", "Dog")] } ["app"] :=
  ofSources_eq (by decide +kernel)

theorem linked_several_iff_dogs :
    (ofSources dogs {}).definition? 2 = some dogPlays ∧ ∀ site ∈ dogPlays.sites,
      (ofSources dogs {}).NamesType dogPlays site "Dog" "go" ∧
      (ofSources dogs {}).linked .static none dogPlays site = [0, 1] := by
  rw [ofSources_dogs]
  generalize known : ofFacts _ _ = ix
  have methods : ix.methodsOf "Dog" "go" = [0, 1] := by
    rw [← known]
    decide +kernel
  refine ⟨known ▸ rfl, fun site here => ?_⟩
  have names : ix.NamesType dogPlays site "Dog" "go" := by
    simp only [dogPlays, List.mem_cons, List.not_mem_nil, or_false] at here
    rcases here with rfl | rfl | rfl
    · exact .onSelf rfl rfl
    · exact .ofSelf rfl rfl
    · have expanded : ix.expand ["Dog", "go"] "app" = [] ++ ["Dog", "go"] := by
        rw [← known]
        decide +kernel
      exact .ofPath rfl (by decide) expanded (by decide +kernel) (by rw [← known]; decide +kernel)
  refine ⟨names, ?_⟩
  rw [(ix.linked_several_iff none dogPlays site).2 "Dog" "go" names (by rw [methods]; decide), methods]

/-- **The static analysis links calls to several definitions.** Each of the three calls in the
program above is linked to both methods. -/
theorem static_links_several :
    ¬∀ (sources : List SourceFile) (on : Source.Features) (n : Nat) (d : Definition) (site : Site),
      (ofSources sources on).definition? n = some d → site ∈ d.sites →
      ((ofSources sources on).linked .static none d site).length ≤ 1 := by
  intro all
  have single := all dogs {} 2 dogPlays ⟨.method "go" true, 1⟩ (by rw [ofSources_dogs]; rfl)
    List.mem_cons_self
  rw [ofSources_dogs] at single
  exact absurd single (by decide +kernel)

end Index

end CallGraph.Program
