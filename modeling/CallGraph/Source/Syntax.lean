import CallGraph.Source.Name

/-!
**The parts of a source text that calls depend on.**

A tree of items (functions, implementations, traits, modules, imports) and, inside functions, a tree
of code. Of code only those forms are told apart that say something about calls: paths, calls,
method calls, macros and record literals. All else is `other`, with its parts in the order in which
they are written.

* `Code` — the body of a function; items inside a body are kept, but are no part of its code;
* `Item`, `Function`, `UseTree` — what a module holds;
* `Attribute`, `Condition` — what an item may depend on;
* `SourceTree` — a whole text.
-/

namespace CallGraph.Source

/-- A path as code writes it. -/
structure PathName where
  /-- The names on it, without type arguments. -/
  names : List Name
  /-- Starts with a double colon. -/
  absolute : Bool := false
  /-- Starts with a type between angle brackets. -/
  qualified : Bool := false
  deriving DecidableEq, Repr

namespace PathName

/-- The texts of the names. -/
def texts (p : PathName) : List String :=
  p.names.map (·.text)

/-- Whether a path is the receiver of a method. -/
def isSelf (p : PathName) : Bool :=
  p.texts == ["self"] && !p.absolute && !p.qualified

/-- The name that stands for the type in a path that makes a value: the one before the last, or the
only one. -/
def owner? (p : PathName) : Option Name :=
  match p.names.reverse with
  | _ :: owner :: _ => some owner
  | [only] => some only
  | [] => none

end PathName

/-- What an attribute says: a word, a word with a value, or a word with a list. Of a path with
several names none is given. -/
inductive Condition where
  | word (name : Option Name)
  /-- The value is given if it is a string. -/
  | value (name : Option Name) (text : Option String)
  /-- The list is given if it can be read as conditions. -/
  | list (name : Option Name) (conditions : Option (List Condition))

/-- An attribute of an item. -/
structure Attribute where
  /-- Its name, if it is a single one. -/
  name : Option Name
  /-- The condition in its brackets, if there is exactly one. -/
  condition : Option Condition

/-- What an import brings in. -/
inductive UseTree where
  /-- Something below a module. -/
  | inside (name : Name) (tree : UseTree)
  | leaf (name : Name)
  | renamed (name : Name) (shown : Name)
  /-- Everything in a module. -/
  | everything
  | group (trees : List UseTree)

/-- A type or a trait as an implementation names it. -/
structure TypeName where
  /-- The last name on its path, if it has one. -/
  name : Option Name
  /-- The tokens it is written with. -/
  texts : List String
  deriving DecidableEq, Repr

/-- A function with a body of parts `β`. -/
structure Function (β : Type) where
  attributes : List Attribute
  isPublic : Bool
  name : Name
  /-- The line of the name. -/
  line : Nat
  body : List β

mutual

/-- Code, as far as calls depend on it. -/
inductive Code where
  /-- A path that stands for a value; `line` is where it starts. -/
  | path (name : PathName) (parts : List Code) (line : Nat)
  | call (attributes : List Code) (callee : Code) (arguments : List Code)
  /-- A method call; `line` is the line of the method's name. -/
  | method (attributes : List Code) (receiver : Code) (name : Name) (line : Nat)
    (generics : List Code) (arguments : List Code)
  /-- The use of a macro, with the expressions in its brackets if they are a list of such. -/
  | expansion (names : List Name) (line : Nat) (arguments : List Code)
  /-- A value given by its fields. -/
  | record (name : PathName) (parts : List Code)
  /-- A definition inside a body. -/
  | item (i : Item)
  | other (parts : List Code)

/-- What a module holds. -/
inductive Item where
  | function (f : Function Code)
  /-- The methods of a type, perhaps those that a trait asks for. -/
  | implementation (attributes : List Attribute) (target : TypeName) (ofTrait : Option TypeName)
    (methods : List (Function Code))
  /-- A trait with the methods that have a default body. -/
  | trait (attributes : List Attribute) (isPublic : Bool) (name : Name)
    (methods : List (Function Code))
  /-- A module; its items are given if they stand in the same text. -/
  | submodule (attributes : List Attribute) (name : Name) (items : Option (List Item))
  | imports (attributes : List Attribute) (tree : UseTree)
  | other

end

instance : Inhabited Code := ⟨.other []⟩

instance : Inhabited Item := ⟨.other⟩

/-- A whole source text. -/
structure SourceTree where
  attributes : List Attribute
  items : List Item

end CallGraph.Source
