import CallGraph.Source.Token

/-!
**Reading token trees.**

A `Parse` reads from the front of a list of trees, and may fail. The functions that look ahead are
plain predicates on the list; those that read are named for what they expect.

* `startsWord`, `startsMark`, `startsGroup`, … — what stands at the front;
* `word`, `mark`, `name`, `within` — reading one thing;
* `repeated`, `listed`, `joined` — reading many.
-/

namespace CallGraph.Source

/-- A reader of token trees. -/
abbrev Parse := StateT (List Tree) Option

/-- Words that no name can be. -/
def keywords : List String :=
  ["_", "abstract", "as", "async", "await", "become", "box", "break", "const", "continue", "crate",
    "do", "dyn", "else", "enum", "extern", "false", "final", "fn", "for", "if", "impl", "in", "let",
    "loop", "macro", "match", "mod", "move", "mut", "override", "priv", "pub", "ref", "return",
    "Self", "self", "static", "struct", "super", "trait", "true", "try", "type", "typeof", "unsafe",
    "unsized", "use", "virtual", "where", "while", "yield"]

/-! ### Looking ahead -/

/-- Whether a word stands at the front. -/
def startsWord (text : String) : List Tree → Bool
  | .word _ n :: _ => n.text == text
  | _ => false

/-- Whether any word stands at the front. -/
def startsAnyWord : List Tree → Bool
  | .word _ _ :: _ => true
  | _ => false

/-- Whether a name stands at the front. -/
def startsName : List Tree → Bool
  | .word _ n :: _ => !keywords.contains n.text
  | _ => false

/-- Whether the characters of an operator stand at the front, next to each other. What follows them
does not matter. -/
def startsMarks : List Char → List Tree → Bool
  | [], _ => true
  | [c], .mark _ d _ :: _ => c == d
  | c :: rest, .mark _ d joint :: trees => c == d && joint && startsMarks rest trees
  | _, _ => false

/-- Whether an operator stands at the front. -/
def startsMark (operator : String) (trees : List Tree) : Bool :=
  startsMarks operator.toList trees

/-- Whether one of some operators stands at the front. -/
def startsAnyMark (operators : List String) (trees : List Tree) : Bool :=
  operators.any (startsMark · trees)

/-- Whether a dot stands at the front that does not begin a range. -/
def startsDot (trees : List Tree) : Bool :=
  startsMark "." trees && !startsMark ".." trees

/-- Whether a single colon stands at the front. -/
def startsColon (trees : List Tree) : Bool :=
  startsMark ":" trees && !startsMark "::" trees

/-- Whether an exclamation mark stands at the front that does not begin a comparison. -/
def startsBang (trees : List Tree) : Bool :=
  startsMark "!" trees && !startsMark "!=" trees

/-- Whether a vertical line stands at the front that separates patterns. -/
def startsBar (trees : List Tree) : Bool :=
  startsMark "|" trees && !startsMark "||" trees && !startsMark "|=" trees

/-- Whether a group between brackets of one kind stands at the front. -/
def startsGroup (d : Delimiter) : List Tree → Bool
  | .group _ e _ :: _ => d == e
  | _ => false

/-- Whether a lifetime stands at the front. -/
def startsLifetime : List Tree → Bool
  | .lifetime _ _ :: _ => true
  | _ => false

/-- Whether a literal stands at the front, a sign in front of a number included. -/
def startsLiteral : List Tree → Bool
  | .literal _ _ :: _ => true
  | .word _ n :: _ => n.text == "true" || n.text == "false"
  | .mark _ '-' _ :: .literal _ (.whole _) :: _ => true
  | .mark _ '-' _ :: .literal _ (.decimal _) :: _ => true
  | _ => false

/-- Whether one of the words that lead a path stands at the front. -/
def startsPathWord (trees : List Tree) : Bool :=
  startsWord "self" trees || startsWord "Self" trees || startsWord "super" trees ||
    startsWord "crate" trees

namespace Parse

/-! ### Reading one thing -/

/-- Whether a condition holds of what comes. -/
def looking (condition : List Tree → Bool) : Parse Bool :=
  return condition (← get)

/-- The line of what comes. -/
def currentLine : Parse Nat :=
  return ((← get).head?.map Tree.line).getD 0

/-- Whether all is read. -/
def atEnd : Parse Bool :=
  looking List.isEmpty

/-- Leaves out some trees. -/
def skip (n : Nat) : Parse Unit :=
  modify (·.drop n)

/-- Reads a word. -/
def word (text : String) : Parse Unit := do
  guard (← looking (startsWord text))
  skip 1

/-- Reads a word if it is there. -/
def word? (text : String) : Parse Bool := do
  let there ← looking (startsWord text)
  if there then skip 1
  return there

/-- Reads an operator. -/
def mark (operator : String) : Parse Unit := do
  guard (← looking (startsMark operator))
  skip operator.length

/-- Reads an operator if it is there. -/
def mark? (operator : String) : Parse Bool := do
  let there ← looking (startsMark operator)
  if there then skip operator.length
  return there

/-- Reads any word. -/
def anyWord : Parse Name := do
  match ← get with
  | .word _ n :: rest => set rest; return n
  | _ => failure

/-- Reads a name. -/
def name : Parse Name := do
  guard (← looking startsName)
  anyWord

/-- Reads a lifetime. -/
def lifetime : Parse Unit := do
  guard (← looking startsLifetime)
  skip 1

/-- Reads a lifetime if it is there. -/
def lifetime? : Parse Bool := do
  let there ← looking startsLifetime
  if there then skip 1
  return there

/-- Reads a literal. -/
def literal : Parse Unit := do
  guard (← looking startsLiteral)
  if ← looking (startsMark "-") then skip 2 else skip 1

/-- Reads a string if it is there. -/
def string? : Parse Bool := do
  match ← get with
  | .literal _ (.text _) :: rest => set rest; return true
  | _ => return false

/-- Reads all of some trees. -/
def whole {α : Type} (p : Parse α) (trees : List Tree) : Option α :=
  match p trees with
  | some (a, []) => some a
  | _ => none

/-- Reads a group between brackets of any kind. -/
def anyGroup : Parse (Delimiter × List Tree) := do
  match ← get with
  | .group _ d inside :: rest => set rest; return (d, inside)
  | _ => failure

/-- Reads a group between brackets of one kind, and all that stands in it. -/
def within {α : Type} (d : Delimiter) (p : Parse α) : Parse α := do
  let (e, inside) ← anyGroup
  guard (d = e)
  whole p inside

/-! ### Reading many -/

/-- Reads as long as there is something more, at most `fuel` times. -/
def repeatedWith {α : Type} (more : Parse (Option α)) : Nat → Parse (List α)
  | 0 => failure
  | fuel + 1 => do
    match ← more with
    | none => return []
    | some a => return a :: (← repeatedWith more fuel)

/-- Reads as long as there is something more. Whatever is read takes at least one tree, so there is
an end. -/
def repeated {α : Type} (more : Parse (Option α)) : Parse (List α) := do
  repeatedWith more ((← get).length + 1)

/-- Reads as long as a condition holds of what comes. -/
def manyWhile {α : Type} (condition : List Tree → Bool) (p : Parse α) : Parse (List α) :=
  repeated do
    if ← looking condition then some <$> p else return none

/-- Reads until all is read. -/
def toEnd {α : Type} (p : Parse α) : Parse (List α) :=
  manyWhile (fun trees => !trees.isEmpty) p

/-- The rest of a list whose entries a separator divides: it ends where `stop` holds of what comes,
perhaps after a last separator. An entry and what divides it from the next take at least one tree. -/
def separatedWith {α : Type} (separator : String) (stop : List Tree → Bool) (p : Parse α) :
    Nat → Parse (List α)
  | 0 => failure
  | fuel + 1 => do
    let before ← get
    if stop before then return []
    let a ← p
    if ← looking stop then return [a]
    mark separator
    guard ((← get).length < before.length)
    return a :: (← separatedWith separator stop p fuel)

/-- A list between commas that ends where `stop` holds of what comes. -/
def listedUntil {α : Type} (stop : List Tree → Bool) (p : Parse α) : Parse (List α) := do
  separatedWith "," stop p ((← get).length + 1)

/-- A list between commas that takes all that comes. -/
def listed {α : Type} (p : Parse α) : Parse (List α) :=
  listedUntil List.isEmpty p

/-- Entries with a separator after each but the last. A separator at the end is read if nothing for
which `more` holds follows it. -/
def joinedWith {α : Type} (separator : String) (more : List Tree → Bool) (p : Parse α) :
    Nat → Parse (List α)
  | 0 => failure
  | fuel + 1 => do
    let a ← p
    if ← mark? separator then
      if ← looking more then return a :: (← joinedWith separator more p fuel)
      else return [a]
    else return [a]

/-- At least one entry, with separators between. -/
def joined {α : Type} (separator : String) (more : List Tree → Bool) (p : Parse α) :
    Parse (List α) := do
  joinedWith separator more p ((← get).length + 1)

end Parse

end CallGraph.Source
