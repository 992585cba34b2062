import CallGraph.Source.Facts
import CallGraph.Vocabulary

/-!
**The definitions of a program.**

All definitions of a program's sources, numbered in order, and the ways to find one: a function by
its id, functions by their bare name, methods by type or by name alone.

* `absolute` — a path written in a module, from the crate on;
* `Foreign` — a function that is defined elsewhere, known by its path alone;
* `Index` — the definitions, with imports, modules and implementations; `Index.ofSources`.
-/

namespace CallGraph.Program

open Source (Definition Facts Features Import)

/-! ### Paths -/

/-- A base after the leading `super` of a path, each of which goes one module up, and what is left
of the path. The crate is never left. -/
def climb (base : List String) : List String → List String
  | "super" :: rest => climb (if 1 < base.length then base.dropLast else base) rest
  | rest => base ++ rest

/-- A path written in a module, with a leading `crate`, `self` or `super` made explicit. -/
def absolute (names : List String) (modulePath : String) : List String :=
  let base := ModulePath.segments modulePath
  match names with
  | "crate" :: rest => base.take 1 ++ rest
  | "self" :: rest => base ++ rest
  | "super" :: _ => climb base names
  | _ => names

/-- The modules that a module lies in, itself included, at most `fuel` of them. -/
def ancestorsWith : Nat → String → List String
  | 0, modulePath => [modulePath]
  | fuel + 1, modulePath =>
    let above := ModulePath.parent modulePath
    if above = modulePath then [modulePath] else modulePath :: ancestorsWith fuel above

/-- The modules that a module lies in, itself included. -/
def ancestors (modulePath : String) : List String :=
  ancestorsWith modulePath.length modulePath

/-! ### Functions that are defined elsewhere -/

/-- A function that is defined elsewhere, by its path. -/
structure Foreign where
  path : List String
  deriving DecidableEq, Repr

namespace Foreign

/-- What the function is known by. -/
def id (f : Foreign) : String :=
  ModulePath.ofSegments f.path

/-- The bare name. -/
def name (f : Foreign) : String :=
  f.path.getLast?.getD ""

/-- The type that the function belongs to: the name in front of its own, if that starts with a
capital and something stands in front of it. -/
def receiver (f : Foreign) : Option String :=
  match f.path.reverse with
  | _ :: type :: _ :: _ => if Text.startsUpper type then some type else none
  | _ => none

/-- The module that the function is defined in. -/
def modulePath (f : Foreign) : String :=
  let own := if f.receiver.isSome then 2 else 1
  ModulePath.ofSegments (f.path.take (max (f.path.length - own) 1))

end Foreign

/-! ### The index -/

/-- One source text, with the module that it defines. -/
structure SourceFile where
  path : String
  modulePath : String
  content : String
  deriving DecidableEq, Repr

/-- What is known of the sources of a program. -/
structure Index where
  definitions : Array Definition
  /-- Imported names, with the paths they stand for, from the crate on. -/
  imports : List Import
  /-- All modules with those they lie in. -/
  modules : List String
  /-- The traits that types implement. -/
  implementations : List (String × String)

namespace Index

/-- The index of some facts, found in sources that define the given modules. -/
def ofFacts (facts : Facts) (sourceModules : List String) : Index where
  definitions := facts.definitions.toArray
  imports := facts.imports.map fun i => { i with path := absolute i.path i.modulePath }
  modules :=
    ((sourceModules ++ facts.definitions.map (·.modulePath)).flatMap ancestors).eraseDups
  implementations := facts.implementations

/-- The index of some sources. Texts that cannot be read define a module and nothing else. -/
def ofSources (sources : List SourceFile) (on : Features) : Index :=
  ofFacts
    (Facts.concat <| sources.filterMap fun s =>
      Facts.ofText? { file := s.path, on := on } s.modulePath s.content)
    (sources.map (·.modulePath))

/-- The definition with a number. -/
def definition? (ix : Index) (i : Nat) : Option Definition :=
  ix.definitions[i]?

/-- The numbers of the definitions that `wanted` holds of, in order. -/
def select (ix : Index) (wanted : Definition → Bool) : List Nat :=
  (List.range ix.definitions.size).filter fun i => (ix.definition? i).any wanted

/-- The first free function with an id. -/
def function? (ix : Index) (id : String) : Option Nat :=
  ix.definitions.findIdx? fun d => d.receiver.isNone && d.id == id

/-- The free functions with a bare name. -/
def functionsNamed (ix : Index) (name : String) : List Nat :=
  ix.select fun d => d.receiver.isNone && d.name == name

/-- The methods of a type with a name. -/
def methodsOf (ix : Index) (type name : String) : List Nat :=
  ix.select fun d => d.receiver == some type && d.name == name

/-- The methods with a name, of whatever type. -/
def methodsNamed (ix : Index) (name : String) : List Nat :=
  ix.select fun d => d.receiver.isSome && d.name == name

/-- What a name stands for in a module, if it is imported; the last import of a name counts. -/
def imported? (ix : Index) (modulePath name : String) : Option (List String) :=
  (ix.imports.reverse.find? fun i => i.modulePath == modulePath && i.name == name).map (·.path)

/-- Whether a path is that of a module. -/
def isModule (ix : Index) (modulePath : String) : Bool :=
  ix.modules.contains modulePath

/-- Where a program starts: at `main` functions of crates, and at tests if they are part of it. -/
def entryPoints (ix : Index) (tests : Bool) : List Nat :=
  ix.select fun d =>
    (d.name == "main" && d.receiver.isNone && !Text.contains d.modulePath "::") ||
      (tests && d.isTest)

/-- A number that is selected is that of a definition for which the condition holds. -/
theorem mem_select {ix : Index} {wanted : Definition → Bool} {i : Nat} :
    i ∈ ix.select wanted ↔ ∃ d, ix.definition? i = some d ∧ wanted d = true := by
  simp only [select, List.mem_filter, List.mem_range, Option.any_eq_true, definition?]
  constructor
  · exact And.right
  · rintro ⟨d, found, holds⟩
    exact ⟨(Array.getElem?_eq_some_iff.1 found).1, d, found, holds⟩

end Index

end CallGraph.Program
