import CallGraph.Text

/-!
**Slash-separated paths.**

A path is a text; what it names is its list of components, in which repeated slashes, slashes at the
end and inner `.` steps leave no trace.

* `components` — what a path is made of;
* `compare` — the order files are listed in: component by component, not character by character;
* `join` — a path read from inside another;
* `fileName?`, `stem?`, `extension?` — the parts of the last name;
* `relativeTo` — the components of a path below another one.
-/

namespace CallGraph.Path

/-- One step of a path. -/
inductive Component where
  /-- The slash at the start of an absolute path. -/
  | root
  /-- A `.` at the start of a relative path. -/
  | here
  /-- A `..`. -/
  | up
  /-- A file or directory name. -/
  | name (text : String)
  deriving DecidableEq, Repr

namespace Component

/-- The component as text. -/
def text : Component → String
  | root => "/"
  | here => "."
  | up => ".."
  | name n => n

/-- Steps are ordered by kind, names by their characters. -/
def compare : Component → Component → Ordering
  | name a, name b => Ord.compare a b
  | a, b => Ord.compare (rank a) (rank b)
where
  /-- The place of a kind of step in the order. -/
  rank : Component → Nat
    | root => 0
    | here => 1
    | up => 2
    | name _ => 3

/-- Whether a piece between slashes changes nothing. -/
def isSilent (piece : String) : Bool :=
  piece = "" || piece = "."

/-- The step a piece between slashes stands for; none for a piece that changes nothing. -/
def ofPiece? (piece : String) : Option Component :=
  if isSilent piece then none else if piece = ".." then some up else some (name piece)

end Component

/-- The pieces of a path between its slashes. -/
def pieces (path : String) : List String :=
  Text.split (· == '/') path

/-- Whether a path starts at the root of the file system. -/
def isAbsolute (path : String) : Bool :=
  Text.startsWith path "/"

/-- What a path is made of. -/
def components (path : String) : List Component :=
  let steps := (pieces path).filterMap Component.ofPiece?
  if isAbsolute path then .root :: steps
  else if (pieces path).head? = some "." then .here :: steps
  else steps

/-- The order of component lists. -/
def compareComponents : List Component → List Component → Ordering
  | [], [] => .eq
  | [], _ :: _ => .lt
  | _ :: _, [] => .gt
  | a :: as, b :: bs => (a.compare b).then (compareComponents as bs)

/-- The order of paths, component by component. -/
def compare (a b : String) : Ordering :=
  compareComponents (components a) (components b)

/-- Whether two paths have the same components. -/
def same (a b : String) : Bool :=
  components a == components b

/-- `path` read from inside `base`. -/
def join (base path : String) : String :=
  if isAbsolute path || base = "" then path
  else if base.toList.getLast? = some '/' then base ++ path
  else base ++ "/" ++ path

/-- The last component, if it is a name. -/
def fileName? (path : String) : Option String :=
  match (components path).getLast? with
  | some (.name n) => some n
  | _ => none

/-- What precedes and what follows the last dot of a file name that does not start with its only
dot. -/
def splitDot (name : String) : String × Option String :=
  match (Text.pieces (· == '.') name.toList).reverse with
  | [] => (name, none)
  | [_] => (name, none)
  | [_, []] => (name, none)
  | last :: before =>
    (String.ofList (List.intercalate ['.'] before.reverse), some (String.ofList last))

/-- The file name without its extension. -/
def stem? (path : String) : Option String :=
  (fileName? path).map fun n => (splitDot n).1

/-- The extension of the file name. -/
def extension? (path : String) : Option String :=
  (fileName? path).bind fun n => (splitDot n).2

/-- What stands in front of the last component of a path that is a name. -/
def folderOf (path : String) : String :=
  let before := (((pieces path).reverse.dropWhile Component.isSilent).drop 1).reverse
  if before.isEmpty then "." else if before = [""] then "/" else "/".intercalate before

/-- Whether the last component of a path is the name `last`. -/
def endsWith (path last : String) : Bool :=
  (components path).getLast? == some (.name last)

/-- The components of `path` below `base`, or all of them if it does not lie there. -/
def relativeTo (base path : String) : List Component :=
  if (components base).isPrefixOf (components path) then
    (components path).drop (components base).length
  else components path

end CallGraph.Path
