import CallGraph.Program.Assembly

/-!
**Resolution by positions.**

A call is resolved by going into lists: to the first name of a path, to the one before its last, to
the names behind its first, to the definition with a number. Here each such step is one that may
fail, because the list may be too short, and a failed step ends the whole resolution. This is not
what runs; it is there to say that no step of what runs goes wrong.

* `back?`, `from?`, `upTo?`, `filter?` — the steps that may fail;
* `absolute?`, `expand?` — paths from the crate on;
* `pathTargets?`, `resolveMacro?`, `resolveMethod?`, `resolve?` — the targets of a call;
* `nodeOf?` — the node that a target gets.
-/

namespace CallGraph.Program.Positions

open Source (Definition Site)

/-! ### Steps -/

section

variable {α : Type}

/-- The element at a position that is counted from the end of a list. -/
def back? (xs : List α) (k : Nat) : Option α :=
  if k ≤ xs.length then xs[xs.length - k]? else none

/-- What stands from a position on, which may be the end. -/
def from? (xs : List α) (n : Nat) : Option (List α) :=
  if n ≤ xs.length then some (xs.drop n) else none

/-- What stands in front of a position, which may be the end. -/
def upTo? (xs : List α) (n : Nat) : Option (List α) :=
  if n ≤ xs.length then some (xs.take n) else none

/-- The elements that pass a test that may fail. -/
def filter? (test : α → Option Bool) : List α → Option (List α)
  | [] => some []
  | a :: rest => do
    let passes ← test a
    let others ← filter? test rest
    return if passes then a :: others else others

theorem length_lt_of_from? {xs rest : List α} {n : Nat} (some : from? xs (n + 1) = some rest) :
    rest.length < xs.length := by
  unfold from? at some
  split at some
  · cases some
    rw [List.length_drop]
    omega
  · cases some

end

/-! ### Paths from the crate on -/

/-- Takes one `super` after another from the start of a path, and goes one module up for each. -/
def climb? (base names : List String) : Option (List String) :=
  if names[0]? = some "super" then
    match _ : from? names 1 with
    | some rest => climb? (if 1 < base.length then base.dropLast else base) rest
    | none => none
  else some (base ++ names)
termination_by names.length
decreasing_by exact length_lt_of_from? ‹_›

/-- A path written in a module, with a leading `crate`, `self` or `super` made explicit. -/
def absolute? (names : List String) (modulePath : String) : Option (List String) :=
  let base := ModulePath.segments modulePath
  match names[0]? with
  | some "crate" => (from? names 1).map (base.take 1 ++ ·)
  | some "self" => (from? names 1).map (base ++ ·)
  | some "super" => climb? base names
  | _ => some names

/-- A path written in a module, from the crate on: its first name may be imported. -/
def expand? (ix : Index) (names : List String) (modulePath : String) : Option (List String) :=
  match names[0]? with
  | none => some []
  | some first =>
    match ix.imported? modulePath first with
    | some path => (from? names 1).map (path ++ ·)
    | none => absolute? names modulePath

/-! ### Paths -/

/-- The function that a bare name means, if there is one. -/
def uniqueFunction? (ix : Index) (name crate : String) : Option (Option Nat) := do
  let all := ix.functionsNamed name
  let inCrate ← filter? (fun i => (ix.definition? i).map (·.crate == crate)) all
  return match inCrate, all with
    | [only], _ => some only
    | [], [only] => some only
    | _, _ => none

/-- The definitions that a path means by its last names. -/
def byLastNames? (ix : Index) (path : List String) (crate : String) : Option (List Nat) :=
  if path.length = 1 then do
    let name ← path[0]?
    let found ← uniqueFunction? ix name crate
    return found.toList
  else do
    let type ← back? path 2
    let name ← back? path 1
    return ix.methodsOf type name

/-- What a path that is not empty means, from the crate on; nothing if it matches nothing. -/
def resolveNames? (ix : Index) (path : List String) (modulePath crate : String) :
    Option (List Target) := do
  let first ← path[0]?
  if platformCrates.contains first then return [.standard ⟨path⟩]
  match (Index.candidates path modulePath crate).findSome? ix.function? with
  | some i => return [.definition i]
  | none =>
    let found ← byLastNames? ix path crate
    if !found.isEmpty then return found.map .definition
    match prelude.lookup first with
    | some full =>
      let rest ← from? path 1
      return [.standard ⟨full ++ rest⟩]
    | none =>
      let through := (Index.candidates path modulePath crate).any fun c =>
        let head := (ModulePath.head? c).getD c
        ix.isModule head && head != modulePath && head != crate
      if 2 ≤ path.length && Text.startsLower first && !(through || ix.isModule first) then
        return [.external ⟨path⟩]
      else return []

/-- What a path that starts with `Self` means in a definition: methods of the type that the
definition belongs to, if one more name follows. -/
def ownTargets? (ix : Index) (d : Definition) (names : List String) : Option (List Target) :=
  match d.receiver, names.length with
  | some type, 2 => names[1]?.map fun name => (ix.methodsOf type name).map .definition
  | _, _ => some []

/-- What a path in a definition means; nothing if it matches nothing. -/
def pathTargets? (ix : Index) (d : Definition) (names : List String) : Option (List Target) :=
  if names.isEmpty then some []
  else do
    let first ← names[0]?
    if first = "Self" then ownTargets? ix d names
    else
      let path ← expand? ix names d.modulePath
      if path.isEmpty then return []
      resolveNames? ix path d.modulePath d.crate

/-- What a path in a definition means, if only itself. -/
def resolvePath? (ix : Index) (d : Definition) (names : List String) : Option (List Target) :=
  (pathTargets? ix d names).map (Target.orUnresolved (ModulePath.ofSegments names))

/-! ### Macros and methods -/

/-- What a macro in a module is. -/
def resolveMacro? (ix : Index) (names : List String) (modulePath : String) : Option Target :=
  match names with
  | [] => some (.unresolved "")
  | [name] =>
    if platformMacros.contains name then some (.standard ⟨["std", name ++ "!"]⟩)
    else some (.unresolved (name ++ "!"))
  | _ => do
    let path ← expand? ix names modulePath
    let first ← path[0]?
    return if platformCrates.contains first then .standard ⟨Index.withBang path⟩
      else .external ⟨Index.withBang path⟩

/-- The methods of a name that an analysis takes into account. -/
def methodChoices? (ix : Index) (algorithm : Algorithm) (made : Option (List String))
    (name : String) : Option (List Nat) :=
  let all := ix.methodsNamed name
  match algorithm with
  | .static | .imported => some (if all.length = 1 then all else [])
  | .cha => some all
  | .rta =>
    match made with
    | none => some all
    | some types => filter? (fun i => (ix.definition? i).map (ix.isMade types)) all

/-- What a method call in a definition means. -/
def resolveMethod? (ix : Index) (algorithm : Algorithm) (made : Option (List String))
    (d : Definition) (name : String) (onSelf : Bool) : Option (List Target) := do
  let own := ix.ownMethods d name onSelf
  if !own.isEmpty then return own.map .definition
  let chosen ← methodChoices? ix algorithm made name
  return Target.orUnresolved ("." ++ name) (chosen.map .definition)

/-! ### Calls -/

/-- The targets of a call in a definition. -/
def resolve? (ix : Index) (algorithm : Algorithm) (made : Option (List String)) (d : Definition)
    (site : Site) : Option (List Target) :=
  match site.target with
  | .path names => resolvePath? ix d names
  | .argument names => do
    let found ← resolvePath? ix d names
    return found.filter fun t => t.definition?.isSome
  | .expansion names => do
    let found ← resolveMacro? ix names d.modulePath
    return [found]
  | .method name onSelf => resolveMethod? ix algorithm made d name onSelf

/-! ### Nodes -/

/-- The type that a function that is defined elsewhere belongs to, if it belongs to one. -/
def receiver? (f : Foreign) : Option (Option String) :=
  if 3 ≤ f.path.length then
    (back? f.path 2).map fun type => if Text.startsUpper type then some type else none
  else some none

/-- The module that it is defined in. -/
def modulePath? (f : Foreign) : Option String := do
  let receiver ← receiver? f
  let own := if receiver.isSome then 2 else 1
  let front ← upTo? f.path (max (f.path.length - own) 1)
  return ModulePath.ofSegments front

/-- The node of a function that is defined elsewhere. -/
def foreignNode? (f : Foreign) (isStd : Bool) : Option Node := do
  let modulePath ← modulePath? f
  let receiver ← receiver? f
  return { ({ id := f.id, name := f.name : Node }.inModule modulePath) with
    isStd := isStd
    exported := true
    receiver := receiver }

/-- The node that a target gets. -/
def nodeOf? (ix : Index) : Target → Option Node
  | .definition i => (ix.definition? i).map definitionNode
  | .standard f => foreignNode? f true
  | .external f => foreignNode? f false
  | .unresolved text => some (unresolvedNode text)

end CallGraph.Program.Positions
