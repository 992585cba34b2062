import CallGraph.Program.Index

/-!
**What a call refers to.**

A path may name a function of the program, one of the platform's library, or one of another crate;
a method call may mean any method of that name. How much is left open depends on the analysis.

* `Target` — what a call refers to;
* `resolvePath`, `resolveMethod`, `resolveMacro` — the three kinds of calls;
* `resolve` — the targets of a call of a definition.
-/

namespace CallGraph.Program

open Source (Definition Site)

/-- What a call refers to. -/
inductive Target where
  /-- A definition of the program, by number. -/
  | definition (i : Nat)
  /-- A function of the platform's library. -/
  | standard (f : Foreign)
  /-- A function of another crate. -/
  | external (f : Foreign)
  /-- The text of a reference that matches nothing. -/
  | unresolved (text : String)
  deriving DecidableEq, Repr

namespace Target

/-- The number of the definition that a target is. -/
def definition? : Target → Option Nat
  | definition i => some i
  | _ => none

/-- What was found, or the text of the reference if nothing was. -/
def orUnresolved (text : String) (found : List Target) : List Target :=
  if found.isEmpty then [.unresolved text] else found

@[simp] theorem definition_mem_orUnresolved {text : String} {found : List Target} {i : Nat} :
    .definition i ∈ orUnresolved text found ↔ .definition i ∈ found := by
  unfold orUnresolved
  split
  · rename_i none
    simp [List.isEmpty_iff.1 none]
  · exact Iff.rfl

end Target

/-! ### The platform's library -/

/-- The crates of the platform's library that paths go into. -/
def platformCrates : List String :=
  ["std", "core", "alloc"]

/-- The macros that the platform's library gives to every module. -/
def platformMacros : List String :=
  ["println", "print", "eprintln", "eprint", "format", "format_args", "write", "writeln", "vec",
    "panic", "assert", "assert_eq", "assert_ne", "debug_assert", "debug_assert_eq",
    "debug_assert_ne", "dbg", "todo", "unimplemented", "unreachable", "matches", "concat"]

/-- The names that the platform's library gives to every module, with what they stand for. -/
def prelude : List (String × List String) :=
  [("Box", ["std", "boxed", "Box"]), ("Vec", ["std", "vec", "Vec"]),
    ("String", ["std", "string", "String"]), ("Option", ["std", "option", "Option"]),
    ("Result", ["std", "result", "Result"]), ("Some", ["std", "option", "Option", "Some"]),
    ("Ok", ["std", "result", "Result", "Ok"]), ("Err", ["std", "result", "Result", "Err"]),
    ("drop", ["std", "mem", "drop"])]

/-- Whether a path leads into the platform's library. -/
def isPlatformPath (names : List String) : Bool :=
  names.head?.any platformCrates.contains

namespace Index

/-! ### Paths -/

/-- A path written in a module, from the crate on: its first name may be imported. -/
def expand (ix : Index) (names : List String) (modulePath : String) : List String :=
  match names with
  | [] => []
  | first :: rest =>
    match ix.imported? modulePath first with
    | some path => path ++ rest
    | none => absolute names modulePath

/-- The ids that a path may mean: as it is written, in the module, and in the crate. -/
def candidates (names : List String) (modulePath crate : String) : List String :=
  let joined := ModulePath.ofSegments names
  [joined, ModulePath.child modulePath joined, ModulePath.child crate joined]

/-- The function that a bare name means: the only one in the crate, or the only one at all. -/
def uniqueFunction? (ix : Index) (name crate : String) : Option Nat :=
  let all := ix.functionsNamed name
  match all.filter fun i => (ix.definition? i).any (·.crate == crate), all with
  | [only], _ => some only
  | [], [only] => some only
  | _, _ => none

/-- The definitions that a path means by its last names: a function by its bare name, or the methods
of a type. -/
def byLastNames (ix : Index) (names : List String) (crate : String) : List Nat :=
  match names.reverse with
  | [] => []
  | [name] => (ix.uniqueFunction? name crate).toList
  | name :: type :: _ => ix.methodsOf type name

/-- Whether a path seems to lead out of the program: it has several names, starts with a small
letter, and none of the modules it may go through is part of the program. -/
def leadsOut (ix : Index) (names : List String) (modulePath crate : String) : Bool :=
  let through := (candidates names modulePath crate).any fun c =>
    let head := (ModulePath.head? c).getD c
    ix.isModule head && head != modulePath && head != crate
  2 ≤ names.length && names.head?.any Text.startsLower &&
    !(through || names.head?.any ix.isModule)

/-- What a path from the crate on means; nothing if it matches nothing. -/
def resolveNames (ix : Index) (names : List String) (modulePath crate : String) : List Target :=
  if isPlatformPath names then [.standard ⟨names⟩]
  else
    match (candidates names modulePath crate).findSome? ix.function? with
    | some i => [.definition i]
    | none =>
      match ix.byLastNames names crate with
      | i :: more => (i :: more).map .definition
      | [] =>
        match names.head?.bind fun first => prelude.lookup first with
        | some full => [.standard ⟨full ++ names.drop 1⟩]
        | none =>
          if ix.leadsOut names modulePath crate then [.external ⟨names⟩] else []

/-- What a path in a definition means; nothing if it matches nothing. `Self` stands for the type
that the definition belongs to. -/
def pathTargets (ix : Index) (d : Definition) (names : List String) : List Target :=
  match names with
  | [] => []
  | "Self" :: rest =>
    match d.receiver, rest with
    | some type, [name] => (ix.methodsOf type name).map .definition
    | _, _ => []
  | _ =>
    match ix.expand names d.modulePath with
    | [] => []
    | path => ix.resolveNames path d.modulePath d.crate

/-- What a path in a definition means, if only itself. -/
def resolvePath (ix : Index) (d : Definition) (names : List String) : List Target :=
  Target.orUnresolved (ModulePath.ofSegments names) (ix.pathTargets d names)

/-! ### Macros -/

/-- A path with the mark of a macro on its last name. -/
def withBang (names : List String) : List String :=
  match names.reverse with
  | [] => []
  | last :: before => before.reverse ++ [last ++ "!"]

/-- What a macro in a module is. -/
def resolveMacro (ix : Index) (names : List String) (modulePath : String) : Target :=
  match names with
  | [] => .unresolved ""
  | [name] =>
    if platformMacros.contains name then .standard ⟨["std", name ++ "!"]⟩
    else .unresolved (name ++ "!")
  | _ =>
    let path := ix.expand names modulePath
    if isPlatformPath path then .standard ⟨withBang path⟩ else .external ⟨withBang path⟩

/-! ### Methods -/

/-- Whether a value that a method may be called on is ever made. A default method is there for every
type that implements its trait. -/
def isMade (ix : Index) (made : List String) (d : Definition) : Bool :=
  let owner := d.receiver.getD ""
  if d.isDefault then
    ix.implementations.any fun (ofTrait, type) => ofTrait == owner && made.contains type
  else made.contains owner

/-- The methods of a name that an analysis takes into account: a single one, all of them, or those
of types of which values are made. -/
def methodChoices (ix : Index) (algorithm : Algorithm) (made : Option (List String))
    (name : String) : List Nat :=
  let all := ix.methodsNamed name
  match algorithm with
  | .static | .imported => if all.length = 1 then all else []
  | .cha => all
  | .rta =>
    match made with
    | none => all
    | some types => all.filter fun i => (ix.definition? i).any (ix.isMade types)

/-- The methods of a definition's own type that it may call on `self`. -/
def ownMethods (ix : Index) (d : Definition) (name : String) (onSelf : Bool) : List Nat :=
  match onSelf, d.receiver with
  | true, some type => ix.methodsOf type name
  | _, _ => []

/-- The methods that a method call in a definition may mean. Those of its own type come first. -/
def methodTargets (ix : Index) (algorithm : Algorithm) (made : Option (List String))
    (d : Definition) (name : String) (onSelf : Bool) : List Nat :=
  if (ix.ownMethods d name onSelf).isEmpty then ix.methodChoices algorithm made name
  else ix.ownMethods d name onSelf

/-- What a method call in a definition means. -/
def resolveMethod (ix : Index) (algorithm : Algorithm) (made : Option (List String))
    (d : Definition) (name : String) (onSelf : Bool) : List Target :=
  Target.orUnresolved ("." ++ name)
    ((ix.methodTargets algorithm made d name onSelf).map .definition)

/-! ### Calls -/

/-- The targets of a call in a definition, given the types of which values are made. A path that is
handed over counts only if it is a definition of the program. -/
def resolve (ix : Index) (algorithm : Algorithm) (made : Option (List String)) (d : Definition)
    (site : Site) : List Target :=
  match site.target with
  | .path names => ix.resolvePath d names
  | .argument names => (ix.resolvePath d names).filter fun t => t.definition?.isSome
  | .expansion names => [ix.resolveMacro names d.modulePath]
  | .method name onSelf => ix.resolveMethod algorithm made d name onSelf

/-! ### Definitions that are referred to -/

theorem lt_of_mem_select {ix : Index} {wanted : Definition → Bool} {i : Nat}
    (here : i ∈ ix.select wanted) : i < ix.definitions.size :=
  List.mem_range.1 (List.mem_filter.1 here).1

theorem lt_of_function? {ix : Index} {id : String} {i : Nat} (found : ix.function? id = some i) :
    i < ix.definitions.size := by
  obtain ⟨inRange, _⟩ := Array.findIdx?_eq_some_iff_getElem.1 found
  exact inRange

theorem lt_of_uniqueFunction? {ix : Index} {name crate : String} {i : Nat}
    (found : ix.uniqueFunction? name crate = some i) : i < ix.definitions.size := by
  unfold uniqueFunction? at found
  dsimp only at found
  split at found
  · rename_i only same
    have here : only ∈ (ix.functionsNamed name).filter fun i =>
        (ix.definition? i).any (·.crate == crate) := by
      rw [same]
      exact List.mem_singleton_self only
    cases found
    exact lt_of_mem_select ((List.mem_filter.1 here).1)
  · rename_i only _ same
    have here : only ∈ ix.functionsNamed name := by
      rw [same]
      exact List.mem_singleton_self only
    cases found
    exact lt_of_mem_select here
  · cases found

theorem lt_of_mem_byLastNames {ix : Index} {names : List String} {crate : String} {i : Nat}
    (here : i ∈ ix.byLastNames names crate) : i < ix.definitions.size := by
  unfold byLastNames at here
  split at here
  · cases here
  · exact lt_of_uniqueFunction? (Option.mem_toList.1 here)
  · exact lt_of_mem_select here

theorem lt_of_mem_resolveNames {ix : Index} {names : List String} {modulePath crate : String}
    {i : Nat} (here : .definition i ∈ ix.resolveNames names modulePath crate) :
    i < ix.definitions.size := by
  unfold resolveNames at here
  split at here
  · simp at here
  · split at here
    · rename_i found
      obtain ⟨id, _, found⟩ := List.exists_of_findSome?_eq_some found
      rw [List.mem_singleton] at here
      cases here
      exact lt_of_function? found
    · split at here
      · rename_i first more found
        obtain ⟨j, inList, same⟩ := List.mem_map.1 here
        cases same
        rw [← found] at inList
        exact lt_of_mem_byLastNames inList
      · split at here
        · simp at here
        · split at here <;> simp at here

theorem lt_of_mem_pathTargets {ix : Index} {d : Definition} {names : List String} {i : Nat}
    (here : .definition i ∈ ix.pathTargets d names) : i < ix.definitions.size := by
  unfold pathTargets at here
  split at here
  · cases here
  · split at here
    · obtain ⟨j, inList, same⟩ := List.mem_map.1 here
      cases same
      exact lt_of_mem_select inList
    · cases here
  · split at here
    · cases here
    · exact lt_of_mem_resolveNames here

/-- Every analysis chooses among all methods of a name. -/
theorem methodChoices_subset (ix : Index) (algorithm : Algorithm) (made : Option (List String))
    (name : String) : ix.methodChoices algorithm made name ⊆ ix.methodsNamed name := by
  intro i here
  unfold methodChoices at here
  cases algorithm with
  | «static» | imported =>
    dsimp only at here
    split at here
    · exact here
    · cases here
  | cha => exact here
  | rta =>
    cases made with
    | none => exact here
    | some types => exact (List.mem_filter.1 here).1

theorem lt_of_mem_methodChoices {ix : Index} {algorithm : Algorithm} {made : Option (List String)}
    {name : String} {i : Nat} (here : i ∈ ix.methodChoices algorithm made name) :
    i < ix.definitions.size :=
  lt_of_mem_select (ix.methodChoices_subset algorithm made name here)

theorem lt_of_mem_methodTargets {ix : Index} {algorithm : Algorithm} {made : Option (List String)}
    {d : Definition} {name : String} {onSelf : Bool} {i : Nat}
    (here : i ∈ ix.methodTargets algorithm made d name onSelf) : i < ix.definitions.size := by
  unfold methodTargets at here
  split at here
  · exact lt_of_mem_methodChoices here
  · unfold ownMethods at here
    split at here
    · exact lt_of_mem_select here
    · cases here

/-- A macro is no definition of the program. -/
theorem definition_ne_resolveMacro (ix : Index) (names : List String) (modulePath : String)
    (i : Nat) : .definition i ≠ ix.resolveMacro names modulePath := by
  unfold resolveMacro
  split
  · exact nofun
  · split <;> exact nofun
  · dsimp only
    split <;> exact nofun

/-- **A definition that a call refers to is one of the program.** -/
theorem lt_of_mem_resolve {ix : Index} {algorithm : Algorithm} {made : Option (List String)}
    {d : Definition} {site : Site} {i : Nat}
    (here : .definition i ∈ ix.resolve algorithm made d site) : i < ix.definitions.size := by
  unfold resolve at here
  split at here
  · exact lt_of_mem_pathTargets (Target.definition_mem_orUnresolved.1 here)
  · have here := (List.mem_filter.1 here).1
    exact lt_of_mem_pathTargets (Target.definition_mem_orUnresolved.1 here)
  · exact absurd (List.mem_singleton.1 here) (ix.definition_ne_resolveMacro _ _ i)
  · obtain ⟨j, found, same⟩ := List.mem_map.1 (Target.definition_mem_orUnresolved.1 here)
    cases same
    exact lt_of_mem_methodTargets found

end Index

end CallGraph.Program
