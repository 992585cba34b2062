import CallGraph.Text

/-!
**Module paths.**

A module path names a module by its crate and the modules on the way to it: `app::net::tcp`. Graphs
that come from elsewhere may use slashes instead.

* `segments`, `ofSegments` — the names between the double colons (`segments_ne_nil`);
* `parent` — the path without its last name;
* `displayName` — the last name of a path, at whatever separator;
* `isStandard`, `isInternal` — modules of the platform's library, and the plumbing behind it.
-/

namespace CallGraph.ModulePath

/-- The parts between double colons, for a list of characters. -/
def split : List Char → List (List Char)
  | [] => [[]]
  | ':' :: ':' :: rest => [] :: split rest
  | c :: rest =>
    match split rest with
    | [] => [[c]]
    | part :: parts => (c :: part) :: parts

/-- There is always at least one part. -/
theorem split_ne_nil (cs : List Char) : split cs ≠ [] := by
  fun_induction split cs <;> simp

/-- The names of a module path. -/
def segments (path : String) : List String :=
  (split path.toList).map String.ofList

/-- A module path has at least one name, if only an empty one. -/
theorem segments_ne_nil (path : String) : segments path ≠ [] := by
  simp [segments, split_ne_nil]

/-- The path with the given names. -/
def ofSegments (names : List String) : String :=
  String.intercalate "::" names

/-- A path and a name below it. -/
def child (path name : String) : String :=
  path ++ "::" ++ name

/-- What precedes the last double colon of a list of characters, given in reverse order. -/
def beforeLast : List Char → Option (List Char)
  | [] => none
  | ':' :: ':' :: rest => some rest.reverse
  | _ :: rest => beforeLast rest

/-- What precedes the last double colon. -/
def head? (path : String) : Option String :=
  (beforeLast path.toList.reverse).map String.ofList

/-- The path without its last name; a path of one name is its own parent. -/
def parent (path : String) : String :=
  (head? path).getD path

/-- The crate a module belongs to: the first name of its path. -/
def crateName (path : String) : String :=
  (segments path).head?.getD path

/-- The name a module is shown by: the last name of its path that is not empty. -/
def displayName (path : String) : String :=
  Text.lastWord (fun c => c == '/' || c == ':') path

/-! ### The platform's library -/

/-- Crates that come with the toolchain. -/
def standardCrates : List String :=
  ["std", "core", "alloc", "proc_macro", "test"]

/-- Runtime support modules, which are noise even when reached through the library. -/
def runtimeModules : List String :=
  ["std::rt", "std::sys", "std::sys_common", "core::intrinsics", "core::panicking", "alloc::alloc"]

/-- Names that mark a module as private plumbing of its crate. -/
def internalNames : List String :=
  ["internal", "__private", "__rt"]

/-- The names of a path at whatever separator, empty ones left out. -/
def names (path : String) : List String :=
  Text.words (fun c => c == ':' || c == '/') path

/-- Whether a module belongs to the platform's library. -/
def isStandard (path : String) : Bool :=
  (names path).head?.any standardCrates.contains

/-- Whether a module is `top` or lies below it. -/
def isWithin (path top : String) : Bool :=
  path == top || Text.startsWith path (top ++ "::")

/-- Whether a module is runtime support rather than code of a program or its dependencies. -/
def isInternal (path : String) : Bool :=
  (names path).any internalNames.contains || runtimeModules.any (isWithin path)

end CallGraph.ModulePath
