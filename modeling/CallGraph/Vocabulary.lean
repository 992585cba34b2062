import CallGraph.Text.Lowercase

/-!
**The words of a query.**

The choices a query can make, each with the words it is written in and the one word it is shown by.
Words are read without regard to case and to blanks around them.

* `Algorithm`, `Direction`, `Format`, `EndpointMatch` — one `parse?` and one `name` each, and
  `parse?_name`: the shown word is read back;
* `Grouping` — how a drawing is grouped, given by keys (`ofKeys_keys`).
-/

namespace CallGraph

/-- A word as it is compared: without blanks around it, in small letters. -/
def canonicalWord (text : String) : String :=
  Text.lowercase (Text.trim text)

/-- How a call graph is obtained. -/
inductive Algorithm where
  /-- Only calls with one possible target are linked. -/
  | static
  /-- A method call is linked to every method of that name. -/
  | cha
  /-- The same, among what `main` reaches and the types that it constructs. -/
  | rta
  /-- Graph documents made elsewhere are read. -/
  | imported
  deriving DecidableEq, Repr

namespace Algorithm

/-- The algorithm a word stands for. -/
def parse? (text : String) : Option Algorithm :=
  match canonicalWord text with
  | "static" => some static
  | "cha" => some cha
  | "rta" => some rta
  | "import" => some imported
  | "json" => some imported
  | _ => none

/-- The word an algorithm is shown by. -/
def name : Algorithm → String
  | static => "static"
  | cha => "cha"
  | rta => "rta"
  | imported => "import"

end Algorithm

/-- Which way a walk from a symbol follows the calls. -/
inductive Direction where
  /-- To what the symbol calls, directly or through others. -/
  | callees
  /-- To what calls the symbol, directly or through others. -/
  | callers
  | both
  deriving DecidableEq, Repr

namespace Direction

/-- The direction a word stands for. -/
def parse? (text : String) : Option Direction :=
  match canonicalWord text with
  | "downstream" => some callees
  | "down" => some callees
  | "upstream" => some callers
  | "up" => some callers
  | "both" => some both
  | _ => none

/-- The word a direction is shown by. -/
def name : Direction → String
  | callees => "downstream"
  | callers => "upstream"
  | both => "both"

end Direction

/-- What a selection is written as. -/
inductive Format where
  | mermaid
  | dot
  | json
  deriving DecidableEq, Repr

namespace Format

/-- The format a word stands for. -/
def parse? (text : String) : Option Format :=
  match canonicalWord text with
  | "mermaid" => some mermaid
  | "mmd" => some mermaid
  | "dot" => some dot
  | "graphviz" => some dot
  | "json" => some json
  | _ => none

/-- The word a format is shown by. -/
def name : Format → String
  | mermaid => "mermaid"
  | dot => "dot"
  | json => "json"

end Format

/-- How many endpoints of a call have to lie in the wanted modules. -/
inductive EndpointMatch where
  | both
  | either
  deriving DecidableEq, Repr

namespace EndpointMatch

/-- The endpoint match a word stands for. -/
def parse? (text : String) : Option EndpointMatch :=
  match canonicalWord text with
  | "both" => some both
  | "and" => some both
  | "either" => some either
  | "or" => some either
  | _ => none

/-- The word an endpoint match is shown by. -/
def name : EndpointMatch → String
  | both => "both"
  | either => "either"

/-- Whether a call qualifies, given which of its endpoints do. -/
def combine : EndpointMatch → Bool → Bool → Bool
  | both, caller, callee => caller && callee
  | either, caller, callee => caller || callee

end EndpointMatch

/-- How the nodes of a drawing are grouped. -/
inductive Grouping where
  | flat
  | byModule
  | byType
  /-- By module, and by receiver type inside each module. -/
  | byModuleAndType
  deriving DecidableEq, Repr

namespace Grouping

/-- The grouping by the given criteria. -/
def ofFlags (byModule byType : Bool) : Grouping :=
  match byModule, byType with
  | false, false => flat
  | true, false => Grouping.byModule
  | false, true => Grouping.byType
  | true, true => byModuleAndType

/-- Reads grouping keys, on top of the criteria already chosen; a key that is no word for one is the
error. Blank keys say nothing. -/
def readKeys (byModule byType : Bool) : List String → Except String Grouping
  | [] => .ok (ofFlags byModule byType)
  | key :: keys =>
    match canonicalWord key with
    | "" => readKeys byModule byType keys
    | "pkg" => readKeys true byType keys
    | "package" => readKeys true byType keys
    | "module" => readKeys true byType keys
    | "mod" => readKeys true byType keys
    | "type" => readKeys byModule true keys
    | other => .error other

/-- The grouping that a list of keys asks for, or the first key that is none. -/
def ofKeys (keys : List String) : Except String Grouping :=
  readKeys false false keys

/-- The keys a grouping is shown by. -/
def keys : Grouping → List String
  | flat => []
  | Grouping.byModule => ["pkg"]
  | Grouping.byType => ["type"]
  | byModuleAndType => ["pkg", "type"]

end Grouping

/-! ### The shown word is read back -/

/-- The shown word is read back. -/
theorem Algorithm.parse?_name (a : Algorithm) : Algorithm.parse? a.name = some a := by
  cases a <;> decide +kernel

/-- The shown word is read back. -/
theorem Direction.parse?_name (d : Direction) : Direction.parse? d.name = some d := by
  cases d <;> decide +kernel

/-- The shown word is read back. -/
theorem Format.parse?_name (f : Format) : Format.parse? f.name = some f := by
  cases f <;> decide +kernel

/-- The shown word is read back. -/
theorem EndpointMatch.parse?_name (m : EndpointMatch) : EndpointMatch.parse? m.name = some m := by
  cases m <;> decide +kernel

/-- The shown keys are read back. -/
theorem Grouping.ofKeys_keys (g : Grouping) : (Grouping.ofKeys g.keys).toOption = some g := by
  cases g <;> decide +kernel

end CallGraph
