import CallGraph.Graph

/-!
**Entry points.**

Where a program starts, as far as its call graph tells: at the declared roots; else at functions
named `main` and at module initializers; else at the functions that nobody calls.
-/

namespace CallGraph

/-- What makes a node an entry point. -/
inductive EntryKind where
  | declared
  | main
  | initializer
  /-- Nobody calls it; this counts only if there is no other entry point. -/
  | orphan
  deriving DecidableEq, Repr

namespace EntryKind

/-- The word a kind is shown by. -/
def name : EntryKind → String
  | declared => "declared"
  | main => "main"
  | initializer => "initializer"
  | orphan => "orphan"

end EntryKind

namespace Graph

/-- Whether a function is a module initializer: `init`, or `init#` and a number. -/
def isInitializer (name : String) : Bool :=
  name == "init" ||
    match name.toList with
    | 'i' :: 'n' :: 'i' :: 't' :: '#' :: digits => !digits.isEmpty && digits.all Char.isDigit
    | _ => false

/-- The kind of entry point that a node is by its name: free functions of the program only. -/
def entryKind? (n : Node) : Option EntryKind :=
  if n.receiver.isSome || n.synthetic || n.isStd then none
  else if n.name == "main" then some .main
  else if isInitializer n.name then some .initializer
  else none

/-- The nodes that are entry points by their name. -/
def namedEntries (g : Graph) : List (Nat × EntryKind) :=
  g.nodeNumbers.filterMap fun v => ((g.node? v).bind entryKind?).map fun kind => (v, kind)

/-- The nodes that nobody calls. -/
def orphans (g : Graph) : List (Nat × EntryKind) :=
  (g.nodeNumbers.filter fun v => g.inDegree v == 0).map fun v => (v, .orphan)

/-- The entry points of a graph: the first of the three sorts that has any. -/
def entryPoints (g : Graph) : List (Nat × EntryKind) :=
  if !g.roots.isEmpty then g.roots.map fun v => (v, .declared)
  else if !g.namedEntries.isEmpty then g.namedEntries
  else g.orphans

end Graph

end CallGraph
