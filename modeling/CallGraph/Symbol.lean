import CallGraph.Graph

/-!
**Which node a reference names.**

A reference to a function is an id, a bare name, or a name qualified by a module or a receiver type:
`main`, `net::dial`, `Server.start`. The rules are tried in this order over all nodes, so the first
rule that fits any node decides, and of several nodes the first.
-/

namespace CallGraph.Symbol

/-- What may stand between a qualifier and a name. -/
def separators : List String :=
  ["::", "."]

/-- Whether a reference is a qualifier, a separator and a name. -/
def isQualified (reference qualifier name : String) : Bool :=
  separators.any fun separator => reference == qualifier ++ separator ++ name

/-- A way to read a reference. -/
inductive Rule where
  | byId
  | byName
  | byModuleName
  | byModulePath
  | byReceiver
  deriving DecidableEq, Repr

namespace Rule

/-- The rules, the most important first. -/
def all : List Rule :=
  [byId, byName, byModuleName, byModulePath, byReceiver]

/-- Whether a reference, read by a rule, fits a node. -/
def fits : Rule → Node → String → Bool
  | byId, n, reference => n.id == reference
  | byName, n, reference => n.name == reference
  | byModuleName, n, reference => n.moduleName.any fun q => isQualified reference q n.name
  | byModulePath, n, reference => n.modulePath.any fun q => isQualified reference q n.name
  | byReceiver, n, reference => n.receiver.any fun q => isQualified reference q n.name

end Rule

/-- The first node that a rule fits. -/
def byRule (g : Graph) (reference : String) (rule : Rule) : Option Nat :=
  g.nodes.findIdx? fun n => rule.fits n reference

/-- The node a reference names; else the reference without blanks around it. -/
def resolve (g : Graph) (reference : String) : Except String Nat :=
  let wanted := Text.trim reference
  if wanted = "" then .error wanted
  else
    match Rule.all.findSome? (byRule g wanted) with
    | some v => .ok v
    | none => .error wanted

end CallGraph.Symbol
