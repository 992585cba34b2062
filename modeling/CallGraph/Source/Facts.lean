import CallGraph.ModulePath
import CallGraph.Source.Grammar.Statement

/-!
**What a source text says about calls.**

Every function with a body is a definition, with the calls in its body in the order in which they
are met, an outer call before those inside it. Items that are switched off are left out.

* `Features`, `Features.keeps` — the conditions under which items count;
* `Site`, `Code.sites`, `typesMade` — the calls of a body, and the types that it makes values of;
* `UseTree.bindings` — the names that an import brings in;
* `Item.facts`, `Facts.ofText?` — all definitions, imports and implementations.
-/

namespace CallGraph.Source

/-! ### Conditions -/

/-- What is switched on. -/
structure Features where
  /-- Tests are part of the program. -/
  tests : Bool := false
  names : List String := []
  deriving DecidableEq, Repr

mutual

/-- Whether a condition holds. Conditions about anything else than tests and features count as
true. -/
def Condition.holds (on : Features) : Condition → Bool
  | .word name => name.map (·.text) != some "test" || on.tests
  | .value name text =>
    if name.map (·.text) = some "feature" then (text.map on.names.contains).getD true else true
  | .list _ none => true
  | .list name (some conditions) =>
    let word := name.map (·.text)
    if word = some "not" then !firstHolds on conditions
    else if word = some "all" then allHold on conditions
    else if word = some "any" then anyHolds on conditions
    else true

/-- Whether the first condition of a list holds; it does not if there is none. -/
def Condition.firstHolds (on : Features) : List Condition → Bool
  | [] => false
  | c :: _ => c.holds on

/-- Whether all conditions of a list hold. -/
def Condition.allHold (on : Features) : List Condition → Bool
  | [] => true
  | c :: rest => c.holds on && allHold on rest

/-- Whether a condition of a list holds. -/
def Condition.anyHolds (on : Features) : List Condition → Bool
  | [] => false
  | c :: rest => c.holds on || anyHolds on rest

end

/-- Whether an attribute has a name. -/
def Attribute.isNamed (a : Attribute) (name : String) : Bool :=
  a.name.any (·.text == name)

/-- Whether an attribute lets an item count: a test counts among tests, and a condition has to
hold. -/
def Attribute.admits (on : Features) (a : Attribute) : Bool :=
  if a.isNamed "test" then on.tests
  else if a.isNamed "cfg" then (a.condition.map (·.holds on)).getD true
  else true

/-- Whether an item with some attributes counts. -/
def Features.keeps (on : Features) (attributes : List Attribute) : Bool :=
  attributes.all (·.admits on)

/-! ### Calls of a body -/

/-- What a body calls. -/
inductive Reference where
  /-- A function by its path. -/
  | path (names : List String)
  | method (name : String) (onSelf : Bool)
  | expansion (names : List String)
  /-- A function that is handed over as an argument. -/
  | argument (names : List String)
  deriving DecidableEq, Repr

/-- A call in a body, with its line. -/
structure Site where
  target : Reference
  line : Nat
  deriving DecidableEq, Repr

/-- The call of a path, if code is one. -/
def Code.called : Code → List Site
  | .path name _ line => if name.qualified then [] else [⟨.path name.texts, line⟩]
  | _ => []

/-- The hand-over of a path, if code is one. -/
def Code.handedOver : Code → List Site
  | .path name _ line => if name.qualified then [] else [⟨.argument name.texts, line⟩]
  | _ => []

/-- Whether code is the receiver of the method it stands in. -/
def Code.isSelf : Code → Bool
  | .path name _ _ => name.isSelf
  | _ => false

mutual

/-- The calls of code, in order. Definitions inside a body are no part of it. -/
def Code.sites : Code → List Site
  | .path _ parts _ => listSites parts
  | .call attributes callee arguments =>
    callee.called ++ arguments.flatMap Code.handedOver ++ listSites attributes ++ callee.sites ++
      listSites arguments
  | .method attributes receiver name line generics arguments =>
    ⟨.method name.text receiver.isSelf, line⟩ :: arguments.flatMap Code.handedOver ++
      listSites attributes ++ receiver.sites ++ listSites generics ++ listSites arguments
  | .expansion names line arguments =>
    ⟨.expansion (names.map (·.text)), line⟩ :: listSites arguments
  | .record _ parts => listSites parts
  | .item _ => []
  | .other parts => listSites parts

/-- The calls of several pieces of code, in order. -/
def Code.listSites : List Code → List Site
  | [] => []
  | c :: rest => c.sites ++ listSites rest

end

mutual

/-- The names in code that may be types of which values are made, in order. -/
def Code.makers : Code → List Name
  | .path name parts _ => name.owner?.toList ++ listMakers parts
  | .call attributes callee arguments =>
    listMakers attributes ++ callee.makers ++ listMakers arguments
  | .method attributes receiver _ _ generics arguments =>
    listMakers attributes ++ receiver.makers ++ listMakers generics ++ listMakers arguments
  | .expansion _ _ arguments => listMakers arguments
  | .record name parts => name.names.getLast?.toList ++ listMakers parts
  | .item _ => []
  | .other parts => listMakers parts

/-- The names in several pieces of code that may be types of which values are made. -/
def Code.listMakers : List Code → List Name
  | [] => []
  | c :: rest => c.makers ++ listMakers rest

end

/-- The types of which a body makes values: names that start with a capital, each once. `Self` is
the type that the body belongs to. -/
def typesMade (ownType : Option String) (body : List Code) : List String :=
  (((Code.listMakers body).map fun name =>
    if name.text = "Self" then ownType.getD name.text else name.text).filter Text.startsUpper).eraseDups

/-! ### Imports -/

mutual

/-- The names that an import brings in below the names `above`, each with what it stands for. A
group of everything brings in no name that can be told. -/
def UseTree.bindings (above : List String) : UseTree → List (String × List String)
  | .inside name tree => tree.bindings (above ++ [name.text])
  | .leaf name =>
    if name.text = "self" then (above.getLast?.map fun last => (last, above)).toList
    else [(name.text, above ++ [name.text])]
  | .renamed name shown => [(shown.text, above ++ [name.text])]
  | .everything => []
  | .group trees => listBindings above trees

/-- The names that several imports bring in. -/
def UseTree.listBindings (above : List String) : List UseTree → List (String × List String)
  | [] => []
  | t :: rest => t.bindings above ++ listBindings above rest

end

/-! ### Facts -/

/-- A function with a body. -/
structure Definition where
  id : String
  name : String
  modulePath : String
  /-- The type that a method belongs to, or the trait of a default method. -/
  receiver : Option String := none
  /-- A default method of a trait. -/
  isDefault : Bool := false
  exported : Bool
  file : String
  line : Nat
  isTest : Bool
  sites : List Site
  /-- The types of which the body makes values. -/
  makes : List String
  deriving DecidableEq, Repr

/-- The crate that a definition belongs to. -/
def Definition.crate (d : Definition) : String :=
  ModulePath.crateName d.modulePath

/-- A name that stands for something else in a module. -/
structure Import where
  modulePath : String
  name : String
  path : List String
  deriving DecidableEq, Repr

/-- What some source says. -/
structure Facts where
  definitions : List Definition := []
  imports : List Import := []
  /-- The traits that types implement. -/
  implementations : List (String × String) := []
  deriving DecidableEq, Repr

namespace Facts

/-- The facts of one source after those of another. -/
def append (a b : Facts) : Facts where
  definitions := a.definitions ++ b.definitions
  imports := a.imports ++ b.imports
  implementations := a.implementations ++ b.implementations

instance : Append Facts := ⟨append⟩

/-- The facts of several sources. -/
def concat (parts : List Facts) : Facts :=
  parts.foldl (· ++ ·) {}

end Facts

/-- What a method belongs to. -/
structure Owner where
  /-- The type, or the trait of a default method. -/
  name : String
  /-- The trait that asks for the method. -/
  ofTrait : Option String := none
  isDefault : Bool := false

/-- The id of a function in a module. -/
def functionId (modulePath name : String) : Option Owner → String
  | none => ModulePath.child modulePath name
  | some owner =>
    match owner.ofTrait with
    | none => ModulePath.child (ModulePath.child modulePath owner.name) name
    | some ofTrait =>
      ModulePath.child modulePath ("<" ++ owner.name ++ " as " ++ ofTrait ++ ">::" ++ name)

/-- Where facts come from: the file, and what is switched on. -/
structure Origin where
  file : String
  on : Features

/-- The definition that a function is. -/
def define (o : Origin) (modulePath : String) (owner : Option Owner) (exported : Bool)
    (f : Function Code) : Definition where
  id := functionId modulePath f.name.text owner
  name := f.name.text
  modulePath := modulePath
  receiver := owner.map (·.name)
  isDefault := owner.any (·.isDefault)
  exported := exported
  file := o.file
  line := f.line
  isTest := f.attributes.any (·.isNamed "test")
  sites := Code.listSites f.body
  makes := typesMade (owner.map (·.name)) f.body

/-- The definitions that the methods of a type or a trait are. -/
def defineAll (o : Origin) (modulePath : String) (owner : Owner)
    (exported : Function Code → Bool) (methods : List (Function Code)) : List Definition :=
  (methods.filter fun f => o.on.keeps f.attributes).map fun f =>
    define o modulePath (some owner) (exported f) f

/-- The facts of an implementation. One for a type without a name says nothing. -/
def implementationFacts (o : Origin) (modulePath : String) (target : TypeName)
    (ofTrait : Option TypeName) (methods : List (Function Code)) : Facts :=
  match target.name with
  | none => {}
  | some type =>
    let traitName := (ofTrait.bind (·.name)).map (·.text)
    { definitions :=
        defineAll o modulePath { name := type.text, ofTrait := traitName }
          (fun f => traitName.isSome || f.isPublic) methods
      implementations := (traitName.map fun t => (t, type.text)).toList }

mutual

/-- The facts of an item in a module. -/
def Item.facts (o : Origin) (modulePath : String) : Item → Facts
  | .function f =>
    if o.on.keeps f.attributes then
      { definitions := [define o modulePath none f.isPublic f] }
    else {}
  | .implementation attributes target ofTrait methods =>
    if o.on.keeps attributes then implementationFacts o modulePath target ofTrait methods else {}
  | .trait attributes isPublic name methods =>
    if o.on.keeps attributes then
      { definitions :=
          defineAll o modulePath { name := name.text, isDefault := true } (fun _ => isPublic) methods }
    else {}
  | .submodule attributes name (some items) =>
    if o.on.keeps attributes then Item.listFacts o (ModulePath.child modulePath name.text) items else {}
  | .submodule _ _ none => {}
  | .imports attributes tree =>
    if o.on.keeps attributes then
      { imports := (tree.bindings []).map fun (name, path) => ⟨modulePath, name, path⟩ }
    else {}
  | .other => {}

/-- The facts of the items of a module. -/
def Item.listFacts (o : Origin) (modulePath : String) : List Item → Facts
  | [] => {}
  | i :: rest => i.facts o modulePath ++ listFacts o modulePath rest

end

namespace SourceTree

/-- The facts of a whole text. A text that is switched off says nothing. -/
def facts (o : Origin) (modulePath : String) (t : SourceTree) : Facts :=
  if o.on.keeps t.attributes then Item.listFacts o modulePath t.items else {}

end SourceTree

/-- The facts of a text; none if it is no source text. -/
def Facts.ofText? (o : Origin) (modulePath text : String) : Option Facts :=
  (SourceTree.ofText? text).map (·.facts o modulePath)

end CallGraph.Source
