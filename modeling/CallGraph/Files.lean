import CallGraph.Failure
import CallGraph.Path

/-!
**Files and folders.**

A file tree is a value. Looking a path up takes it step by step from the working folder, or from the
top if the path is absolute, and only a folder can be stepped into.

* `Entry` — a file or a folder; `Entry.at?` — what lies inside it;
* `Entry.change` — an entry with a part of it changed, folders made on the way to it;
* `Package` — what the build tool tells of a package;
* `Files` — a tree with a working folder;
* `Files.entry`, `Files.readText` — what a path names;
* `Files.write` — a tree with a file written.
-/

namespace CallGraph

/-- A file or a folder. -/
inductive Entry where
  /-- A file with its text; none if it is no UTF-8 text. -/
  | file (content : Option String)
  /-- A folder with what it holds, in the order it is listed in. -/
  | folder (children : List (String × Entry))
  deriving Inhabited

namespace Entry

/-- Whether an entry is a folder. -/
def isFolder : Entry → Bool
  | file _ => false
  | folder _ => true

/-- What an entry holds. -/
def children : Entry → List (String × Entry)
  | file _ => []
  | folder children => children

/-- What an entry holds under a name. -/
def child? (e : Entry) (name : String) : Option Entry :=
  e.children.lookup name

/-- What lies inside an entry, going by names. -/
def at? (e : Entry) : List String → Option Entry
  | [] => some e
  | name :: rest => (e.child? name).bind (·.at? rest)

@[simp] theorem at?_nil (e : Entry) : e.at? [] = some e := rfl

/-- The children of a folder with one of them changed; the last one is new if there is none of that
name. -/
def changeChild (name : String) (change : Option Entry → Entry) :
    List (String × Entry) → List (String × Entry)
  | [] => [(name, change none)]
  | (other, e) :: rest =>
    if other = name then (other, change (some e)) :: rest
    else (other, e) :: changeChild name change rest

/-- An entry with what lies inside it changed. Folders are made on the way to it. -/
def change (e : Entry) (replace : Option Entry → Entry) : List String → Entry
  | [] => replace (some e)
  | [name] => folder (changeChild name replace e.children)
  | name :: rest =>
    folder (changeChild name (fun old => (old.getD (folder [])).change replace rest) e.children)

/-- The text of a file, or why there is none. -/
def text : Entry → Except IoFault String
  | file (some s) => .ok s
  | file none => .error .invalidData
  | folder _ => .error .isADirectory

end Entry

/-- What is built from a package: a library, a program, a test. -/
structure BuildTarget where
  name : String
  kinds : List String
  /-- The source file that it starts with. -/
  path : String

/-- A package of a workspace, with what is built from it. -/
structure Package where
  name : String
  targets : List BuildTarget

/-- A file tree, seen from a folder in it, with what the build tool makes of the manifests in it. -/
structure Files where
  /-- The folder that all others lie in. -/
  top : Entry
  /-- The names on the way from the top to the working folder. -/
  here : List String
  /-- The packages of the workspace that a manifest belongs to, as the build tool reports them; none
  if it fails. -/
  workspace? : String → Option (List Package) := fun _ => none

namespace Files

/-- The longest name, in bytes. -/
def longestName : Nat := 255

/-- The longest path, in bytes. -/
def longestPath : Nat := 4095

/-- One step of a path, from the place that the names lead to. -/
def step (fs : Files) (place : List String) (piece : String) : Except IoFault (List String) :=
  match fs.top.at? place with
  | none => .error .notFound
  | some (.file _) => .error .notADirectory
  | some (.folder children) =>
    if Path.Component.isSilent piece then .ok place
    else if piece = ".." then .ok place.dropLast
    else if longestName < piece.utf8ByteSize then .error .invalidFilename
    else if (children.lookup piece).isSome then .ok (place ++ [piece])
    else .error .notFound

/-- The folder that a path is read from. -/
def base (fs : Files) (path : String) : List String :=
  if Path.isAbsolute path then [] else fs.here

/-- What is wrong with a path whatever the tree holds. -/
def pathFault? (path : String) : Option IoFault :=
  if Text.contains path "\x00" then some .invalidInput
  else if path = "" then some .notFound
  else if longestPath < path.utf8ByteSize then some .invalidFilename
  else none

/-- The names on the way from the top to what a path names. -/
def place (fs : Files) (path : String) : Except IoFault (List String) :=
  match pathFault? path with
  | some fault => .error fault
  | none => (Path.pieces path).foldlM fs.step (fs.base path)

/-- What a path names. -/
def entry (fs : Files) (path : String) : Except IoFault Entry := do
  let place ← fs.place path
  match fs.top.at? place with
  | some e => return e
  | none => throw .notFound

/-- The text of the file that a path names. -/
def readText (fs : Files) (path : String) : Except IoFault String := do
  (← fs.entry path).text

/-- The last name on the way from the top to what a path names. -/
def lastName? (fs : Files) (path : String) : Option String :=
  (fs.place path).toOption.bind List.getLast?

/-- What a path says of a file to be written: the pieces in front of the last, the last, and whether
a slash follows it. -/
def splitLast (path : String) : List String × String × Bool :=
  match ((Path.pieces path).reverse).dropWhile (· = "") with
  | [] => ([], "", true)
  | last :: before => (before.reverse, last, path.endsWith "/")

/-- A tree with a file written; what it held is gone. Folders are not made. -/
def write (fs : Files) (path content : String) : Except IoFault Files := do
  if let some fault := pathFault? path then throw fault
  let (before, last, slash) := splitLast path
  let folder ← (before ++ ["."]).foldlM fs.step (fs.base path)
  if slash || Path.Component.isSilent last || last = ".." then throw .isADirectory
  if longestName < last.utf8ByteSize then throw .invalidFilename
  if (fs.top.at? (folder ++ [last])).any Entry.isFolder then throw .isADirectory
  return { fs with top := fs.top.change (fun _ => .file (some content)) (folder ++ [last]) }

/-! ### Building trees -/

/-- The names after one more piece of a path, whatever lies there. -/
def next (place : List String) (piece : String) : List String :=
  if Path.Component.isSilent piece then place
  else if piece = ".." then place.dropLast
  else place ++ [piece]

/-- The places that a path leads through, from the folder it is read in. -/
def through (fs : Files) (path : String) : List (List String) :=
  (Path.pieces path).foldl (fun places piece =>
    places ++ [next (places.getLast?.getD []) piece]) [fs.base path]

/-- A tree with an entry at a place, unless one is there. -/
def offer (fs : Files) (place : List String) (e : Entry) : Files :=
  if (fs.top.at? place).isSome then fs
  else { fs with top := fs.top.change (fun old => old.getD e) place }

/-- The tree of a single empty folder, with that as the working folder. -/
def emptyFolder (name : String) : Files where
  top := .folder [(name, .folder [])]
  here := [name]

/-- The names of a path. -/
def names (path : String) : List String :=
  (Path.components path).filterMap fun
    | .name n => some n
    | _ => none

/-- A tree with an entry at a place. -/
def replaceAt (fs : Files) (place : List String) (e : Entry) : Files :=
  { fs with top := fs.top.change (fun _ => e) place }

/-- A tree with an entry under a path below the working folder, and with the folders on the way. -/
def put (fs : Files) (path : String) (replace : Option Entry → Entry) : Files :=
  { fs with top := fs.top.change replace (fs.here ++ names path) }

/-- A tree with a file. -/
def putFile (fs : Files) (path : String) (content : Option String) : Files :=
  fs.put path fun _ => .file content

/-- A tree with a folder. -/
def putFolder (fs : Files) (path : String) : Files :=
  fs.put path fun old => .folder (old.getD (.folder [])).children

end Files

end CallGraph
