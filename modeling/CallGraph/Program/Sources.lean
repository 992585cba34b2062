import CallGraph.Files
import CallGraph.Program.Index
import CallGraph.Request
import CallGraph.Toml.Document

/-!
**The sources of a program.**

A request names source files, folders and manifests. A folder with a `src` folder is a crate, and its
sources lie there; any other folder is searched as it is. A manifest stands for the packages that the
build tool reports. Sources are listed by path, each path once.

* `moduleOf` — the module that a source file defines, by where it lies;
* `crateName` — the name of the crate in a folder;
* `below` — the sources below a folder, `programs` — those that are crates of their own;
* `loadFolder`, `loadWorkspace` — the sources of a folder, and of all packages of a workspace;
* `loadArgument`, `load` — the sources that an argument or a whole request names;
* `distinct` — one source for each path (`distinct_sublist`).
-/

namespace CallGraph.Program

/-! ### Names -/

/-- A name as it is written in code. -/
def identifier (name : String) : String :=
  Text.replaceChar name '-' '_'

/-- A list of characters without all the endings `.rs` at its end, given in reverse order. -/
def dropExtensions : List Char → List Char
  | 's' :: 'r' :: '.' :: rest => dropExtensions rest
  | cs => cs

/-- The name of a source file without its extension. -/
def baseName (name : String) : String :=
  String.ofList (dropExtensions name.toList.reverse).reverse

/-- The modules that a source file defines, by the names from the source folder on. A file named
`mod` stands for the folder that it lies in, and one named `lib` or `main` at the top for the
crate. -/
def moduleNames (names : List String) : List String :=
  match names.getLast? with
  | none => []
  | some last =>
    let folders := names.dropLast
    let base := baseName last
    if base = "mod" || (folders.isEmpty && (base = "lib" || base = "main")) then folders
    else folders ++ [base]

/-- The module that the source at `path` defines, in a crate whose sources lie in `root`. -/
def moduleOf (root path crate : String) : String :=
  ModulePath.ofSegments
    (crate :: (moduleNames ((Path.relativeTo root path).map (·.text))).map identifier)

/-- The crate that a source is when it stands alone. -/
def ownCrate (path : String) : String :=
  ((Path.stem? path).map identifier).getD "main"

/-! ### Manifests -/

/-- The package name that a manifest gives. -/
def packageName (manifest : Toml) : Option String :=
  match manifest.toJson.member? "package" with
  | some package =>
    match package.member? "name" with
    | some (.string name) => some name
    | _ => none
  | none => none

/-- The name of the package in a folder, if it has a manifest that gives one. -/
def readPackage (path : String) (folder : Entry) : Except LoadFailure (Option String) := do
  let manifest := Path.join path "Cargo.toml"
  match folder.child? "Cargo.toml" with
  | some (.file content) =>
    match (Entry.file content).text with
    | .error fault => throw (.unreadableManifest manifest fault)
    | .ok text =>
      match Toml.ofText? text with
      | none => throw (.badManifest manifest)
      | some toml => return packageName toml
  | _ => return none

/-- The name of the crate in a folder: that of the package, or else of the folder itself. -/
def crateName (fs : Files) (path : String) (folder : Entry) : Except LoadFailure String := do
  let name := (← readPackage path folder) <|> fs.lastName? path
  return (name.map identifier).getD "main"

/-! ### Folders -/

/-- Whether a path is that of a source file, by its extension. -/
def isSource (path : String) : Bool :=
  Path.extension? path == some "rs"

/-- Whether a folder is left out: what is built there, or kept by version control. -/
def isLeftOut (path : String) : Bool :=
  Path.endsWith path "target" || Path.endsWith path ".git"

/-- Reads a source. -/
def readSource (path modulePath : String) (e : Entry) : Except LoadFailure SourceFile :=
  match e.text with
  | .ok content => .ok ⟨path, modulePath, content⟩
  | .error fault => .error (.unreadableFile path fault)

mutual

/-- The sources in an entry at `path`, in a crate whose sources lie in `root`. -/
def collect (root crate path : String) : Entry → Except LoadFailure (List SourceFile)
  | .file content =>
    if isSource path then
      (readSource path (moduleOf root path crate) (.file content)).map ([·])
    else .ok []
  | .folder children => if isLeftOut path then .ok [] else collectAll root crate path children

/-- The sources in some entries of the folder at `path`. -/
def collectAll (root crate path : String) :
    List (String × Entry) → Except LoadFailure (List SourceFile)
  | [] => .ok []
  | (name, e) :: rest => do
    let here ← collect root crate (Path.join path name) e
    return here ++ (← collectAll root crate path rest)

end

/-- The sources that lie right in a folder, each a crate of its own. -/
def programs (path : String) (children : List (String × Entry)) :
    Except LoadFailure (List SourceFile) :=
  (children.filter fun (name, _) => isSource (Path.join path name)).mapM fun (name, e) =>
    readSource (Path.join path name) (ownCrate (Path.join path name)) e

/-- The sources in an entry of a source folder. Those right in its folder `bin` are programs. -/
def collectTop (root crate name : String) (e : Entry) : Except LoadFailure (List SourceFile) :=
  if e.isFolder && name = "bin" then programs (Path.join root name) e.children
  else collect root crate (Path.join root name) e

/-- The sources in a source folder. -/
def below (root crate : String) (folder : Entry) : Except LoadFailure (List SourceFile) :=
  if isLeftOut root then .ok []
  else
    List.flatten <$> folder.children.mapM fun (name, e) => collectTop root crate name e

/-- An entry of a folder that is a folder. -/
def childFolder? (folder : Entry) (name : String) : Option Entry :=
  (folder.child? name).filter Entry.isFolder

/-- The sources that a folder stands for. -/
def loadFolder (fs : Files) (includeTests : Bool) (path : String) (folder : Entry) :
    Except LoadFailure (List SourceFile) := do
  let crate ← crateName fs path folder
  match childFolder? folder "src" with
  | none => below path crate folder
  | some src =>
    let sources ← below (Path.join path "src") crate src
    match childFolder? folder "tests" with
    | some tests =>
      if includeTests then return sources ++ (← programs (Path.join path "tests") tests.children)
      else return sources
    | none => return sources

/-! ### Workspaces -/

/-- Whether a path is that of a manifest, by its name. -/
def isManifest (path : String) : Bool :=
  Path.endsWith path "Cargo.toml"

/-- The sources below a folder that the build tool names. -/
def loadBelow (fs : Files) (root crate : String) : Except LoadFailure (List SourceFile) :=
  if isLeftOut root then .ok []
  else
    match fs.entry root with
    | .ok (.folder children) => below root crate (.folder children)
    | .ok (.file _) => .error (.unreadableFolder root .notADirectory)
    | .error fault => .error (.unreadableFolder root fault)

/-- A source that the build tool names. -/
def loadFile (fs : Files) (path modulePath : String) : Except LoadFailure SourceFile :=
  match fs.readText path with
  | .ok content => .ok ⟨path, modulePath, content⟩
  | .error fault => .error (.unreadableFile path fault)

/-- The kinds of what is built from all sources next to the one it starts with. -/
def crateKinds : List String :=
  ["lib", "bin", "proc-macro"]

/-- The sources that a package gives for one target. Tests, and programs in a folder `bin`, are a
single source, and a crate of their own. -/
def loadTarget (fs : Files) (includeTests : Bool) (p : Package) (t : BuildTarget) :
    Except LoadFailure (List SourceFile) :=
  let isTest := t.kinds.contains "test"
  let folder := Path.folderOf t.path
  if isTest && !includeTests then .ok []
  else if !isTest && !t.kinds.any crateKinds.contains then .ok []
  else if isTest || Path.endsWith folder "bin" then
    (loadFile fs t.path (identifier t.name)).map ([·])
  else loadBelow fs folder (identifier p.name)

/-- The sources of the packages that a manifest stands for. A folder is no manifest, whatever its
name. -/
def loadWorkspace (fs : Files) (includeTests : Bool) (path : String) (e : Entry) :
    Except LoadFailure (List SourceFile) := do
  if e.isFolder then throw .noWorkspace
  match fs.workspace? path with
  | none => throw .noWorkspace
  | some packages =>
    List.flatten <$> (packages.flatMap fun p => p.targets.map (p, ·)).mapM fun (p, t) =>
      loadTarget fs includeTests p t

/-! ### Requests -/

/-- The directory that the arguments of a request are read from. -/
def baseOf (r : BuildRequest) : String :=
  r.dir.getD "."

/-- Where an argument of a request lies. -/
def pathOf (r : BuildRequest) (argument : String) : String :=
  Path.join (baseOf r) argument

/-- The sources that an argument names. -/
def loadArgument (fs : Files) (r : BuildRequest) (argument : String) :
    Except LoadFailure (List SourceFile) := do
  let path := pathOf r argument
  match fs.entry path with
  | .error _ => throw (.argumentNotFound argument path)
  | .ok e =>
    if isManifest path then loadWorkspace fs r.includeTests path e
    else if e.isFolder then loadFolder fs r.includeTests path e
    else return [← readSource path (ownCrate path) e]

/-- Puts a source in front of others, in place of the first of them if that has the same path. -/
def keepFirst (s : SourceFile) : List SourceFile → List SourceFile
  | [] => [s]
  | t :: rest => if Path.same s.path t.path then s :: rest else s :: t :: rest

/-- Sources in order, without those whose path is that of the one in front of them. -/
def distinct (sources : List SourceFile) : List SourceFile :=
  sources.foldr keepFirst []

/-- Putting a source in front leaves out at most the one behind it. -/
theorem keepFirst_sublist (s : SourceFile) (sources : List SourceFile) :
    (keepFirst s sources).Sublist (s :: sources) := by
  cases sources with
  | nil => exact List.Sublist.refl _
  | cons t rest =>
    simp only [keepFirst]
    split
    · exact List.Sublist.cons_cons _ (List.sublist_cons_self t rest)
    · exact List.Sublist.refl _

/-- Nothing is added, and the order stays. -/
theorem distinct_sublist (sources : List SourceFile) :
    (distinct sources).Sublist sources := by
  induction sources with
  | nil => exact List.Sublist.refl _
  | cons s rest hyp => exact (keepFirst_sublist s _).trans (List.Sublist.cons_cons _ hyp)

/-- Sources by path. Of several with one path the first counts. -/
def listed (sources : List SourceFile) : List SourceFile :=
  distinct (sources.mergeSort fun a b => Path.compare a.path b.path != .gt)

/-- The sources that a request names. -/
def load (fs : Files) (r : BuildRequest) : Except LoadFailure (List SourceFile) := do
  let found ← r.moduleArgs.mapM (loadArgument fs r)
  return listed found.flatten

end CallGraph.Program
