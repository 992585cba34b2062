import CallGraph.Source.Name

/-!
**Token trees.**

A source text as a list of tokens in which brackets are already matched. Every token knows the line
it starts on. Comments leave no trace, except those that document something: they stand for the
attribute that says the same.

* `Tree` — a token, or a group between brackets with the tokens inside;
* `Tree.ofText?` — the token trees of a text; none if a character fits nowhere or a bracket has no
  partner.
-/

namespace CallGraph.Source

/-- The pairs of brackets. -/
inductive Delimiter where
  | round
  | square
  | curly
  deriving DecidableEq, Repr

namespace Delimiter

/-- The pair that a character opens. -/
def ofOpening? (c : Char) : Option Delimiter :=
  if c = '(' then some round else if c = '[' then some square
  else if c = '\x7b' then some curly else none

/-- The pair that a character closes. -/
def ofClosing? (c : Char) : Option Delimiter :=
  if c = ')' then some round else if c = ']' then some square
  else if c = '\x7d' then some curly else none

/-- The opening bracket. -/
def opening : Delimiter → String
  | round => "("
  | square => "["
  | curly => "\x7b"

/-- The closing bracket. -/
def closing : Delimiter → String
  | round => ")"
  | square => "]"
  | curly => "\x7d"

end Delimiter

/-- A token, or a group of tokens. -/
inductive Tree where
  | word (line : Nat) (name : Name)
  /-- A punctuation character; `joint` if another one follows at once. -/
  | mark (line : Nat) (c : Char) (joint : Bool)
  /-- The name of a lifetime or of a loop. -/
  | lifetime (line : Nat) (name : Name)
  | literal (line : Nat) (l : Literal)
  | group (line : Nat) (delimiter : Delimiter) (inside : List Tree)
  deriving Inhabited

namespace Tree

/-- The line a token starts on. -/
def line : Tree → Nat
  | word n _ | mark n _ _ | lifetime n _ | literal n _ | group n _ _ => n

mutual

/-- A tree without its lines: the texts of its tokens. -/
def texts : Tree → List String
  | word _ name => [name.text]
  | mark _ c _ => [String.singleton c]
  | lifetime _ name => ["'" ++ name.text]
  | literal _ (.text value) => ["\"" ++ value ++ "\""]
  | literal _ (.whole digits) | literal _ (.decimal digits) => [digits]
  | literal _ .other => ["'"]
  | group _ d inside => d.opening :: (listTexts inside ++ [d.closing])

/-- The texts of the tokens of several trees. -/
def listTexts : List Tree → List String
  | [] => []
  | t :: rest => texts t ++ listTexts rest

end

end Tree

namespace Token

/-! ### Blanks and comments -/

/-- Whether a character separates tokens: blanks, and the two marks of writing direction. -/
def isSeparator (c : Char) : Bool :=
  Text.isBlank c || c == '\u200e' || c == '\u200f'

/-- The length of a comment between `/*` and `*/`, which may hold others. The count is of comments
that are open. -/
def blockLength? (depth : Nat) : List Char → Option Nat
  | '/' :: '*' :: rest => (blockLength? (depth + 1) rest).map (· + 2)
  | '*' :: '/' :: rest => if depth ≤ 1 then some 2 else (blockLength? (depth - 1) rest).map (· + 2)
  | _ :: rest => (blockLength? depth rest).map (· + 1)
  | [] => none

/-- The length of what stands before the end of the line. -/
def lineLength : List Char → Nat
  | [] => 0
  | '\n' :: _ => 0
  | _ :: rest => 1 + lineLength rest

/-- Whether two slashes begin a comment that documents nothing. -/
def isPlainLine : List Char → Bool
  | '/' :: '/' :: '/' :: '/' :: _ => true
  | '/' :: '/' :: '/' :: _ => false
  | '/' :: '/' :: '!' :: _ => false
  | '/' :: '/' :: _ => true
  | _ => false

/-- Whether a slash and a star begin a comment that documents nothing. -/
def isPlainBlock : List Char → Bool
  | '/' :: '*' :: '*' :: '*' :: _ => true
  | '/' :: '*' :: '*' :: '/' :: _ => true
  | '/' :: '*' :: '*' :: _ => false
  | '/' :: '*' :: '!' :: _ => false
  | '/' :: '*' :: _ => true
  | _ => false

/-- The length of the comment at the start that documents nothing, if there is one. An empty pair of
markers is such a comment too. -/
def plainComment? (cs : List Char) : Option Nat :=
  if isPlainLine cs then some (lineLength cs)
  else if "/**/".toList.isPrefixOf cs then some 4
  else if isPlainBlock cs then blockLength? 0 cs
  else none

/-- The rest of a line, without the carriage return that may belong to its end. -/
def lineText : List Char → List Char
  | [] => []
  | '\n' :: _ => []
  | '\r' :: '\n' :: _ => []
  | c :: rest => c :: lineText rest

/-- Whether a carriage return stands before something else than the end of a line. -/
def hasBareReturn : List Char → Bool
  | [] => false
  | c :: rest => (c == '\r' && rest.head? != some '\n') || hasBareReturn rest

/-- A comment that documents something: its length, whether it documents what is around it, and
what it says. -/
def docComment? (cs : List Char) : Option (Nat × Bool × List Char) :=
  let found : Option (Nat × Bool × List Char) :=
    match cs with
    | '/' :: '/' :: '!' :: rest => some (3 + lineLength rest, true, lineText rest)
    | '/' :: '*' :: '!' :: _ =>
      (blockLength? 0 cs).map fun n => (n, true, (cs.take (n - 2)).drop 3)
    | '/' :: '/' :: '/' :: rest =>
      if rest.head? = some '/' then none else some (3 + lineLength rest, false, lineText rest)
    | '/' :: '*' :: '*' :: rest =>
      if rest.head? = some '*' then none
      else (blockLength? 0 cs).map fun n => (n, false, (cs.take (n - 2)).drop 3)
    | _ => none
  found.filter fun (_, _, remark) => !hasBareReturn remark

/-- The attribute that a comment stands for. -/
def docAttribute (line : Nat) (around : Bool) (remark : List Char) : List Tree :=
  let content : Tree := .group line .square
    [.word line ⟨"doc", List.all_eq_true.1 (by decide)⟩, .mark line '=' false,
      .literal line (.text (String.ofList remark))]
  if around then [.mark line '#' false, .mark line '!' false, content]
  else [.mark line '#' false, content]

/-! ### Single tokens -/

/-- The punctuation characters. -/
def punctuation : List Char :=
  "~!@#$%^&*-=+|;:,<.>/?'".toList

/-- Whether punctuation stands at the start; the slash of a comment is none. -/
def startsWithMark : List Char → Bool
  | '/' :: '/' :: _ => false
  | '/' :: '*' :: _ => false
  | c :: _ => c ∈ punctuation
  | [] => false

/-- The ways in which a string that is no proper one begins; no name begins so. -/
def brokenStrings : List (List Char) :=
  ["r\"", "r#\"", "r##", "b\"", "b\'", "br\"", "br#", "c\"", "cr\"", "cr#"].map String.toList

/-- The lifetime at the start, and its length. -/
def lifetime? (cs : List Char) : Option (Nat × Name) :=
  let rest := cs.drop 1
  (Name.at? rest).bind fun (n, name) =>
    let after := rest.drop n
    if after.head? = some '\'' || (after.head? = some '#' && !"r#".toList.isPrefixOf rest) then none
    else some (n + 1, name)

/-- The token at the start, and its length. -/
def leaf? (line : Nat) (cs : List Char) : Option (Nat × Tree) :=
  match Literal.scan? cs with
  | some (n, l) => some (n, .literal line l)
  | none =>
    match cs with
    | [] => none
    | c :: rest =>
      if c = '\'' then (lifetime? cs).map fun (n, name) => (n, .lifetime line name)
      else if startsWithMark cs then some (1, .mark line c (startsWithMark rest))
      else if brokenStrings.any (·.isPrefixOf cs) then none
      else (Name.at? cs).map fun (n, name) => (n, .word line name)

/-! ### Matching brackets -/

/-- A group whose closing bracket is still to come. -/
structure Pending where
  line : Nat
  delimiter : Delimiter
  /-- What stands before the group, in reverse order. -/
  before : List Tree

/-- What is read so far: the groups that are open, innermost first, and the trees of the innermost,
in reverse order. -/
structure Progress where
  line : Nat
  opened : List Pending
  trees : List Tree

/-- The end of the text: the trees, if no group is open. -/
def Progress.finish? (p : Progress) : Option (List Tree) :=
  if p.opened.isEmpty then some p.trees.reverse else none

/-- Closes the innermost group, if the bracket is its own. -/
def Progress.close? (p : Progress) (d : Delimiter) : Option Progress :=
  match p.opened with
  | [] => none
  | top :: outer =>
    if top.delimiter = d then
      some { p with
        opened := outer
        trees := .group top.line d p.trees.reverse :: top.before }
    else none

/-- What is read, and how many characters it takes, at the start of the rest of a text. -/
def step? (p : Progress) (cs : List Char) : Option (Nat × Progress) :=
  match cs with
  | [] => none
  | c :: _ =>
    if isSeparator c then some (1, p)
    else if let some n := plainComment? cs then some (n, p)
    else if let some (n, around, remark) := docComment? cs then
      some (n, { p with trees := (docAttribute p.line around remark).reverse ++ p.trees })
    else if let some d := Delimiter.ofOpening? c then
      some (1, { p with opened := ⟨p.line, d, p.trees⟩ :: p.opened, trees := [] })
    else if let some d := Delimiter.ofClosing? c then (p.close? d).map fun q => (1, q)
    else (leaf? p.line cs).map fun (n, t) => (n, { p with trees := t :: p.trees })

/-- Reads a text to its end. Every step takes at least one character, so `fuel` for each character
is enough. -/
def run (fuel : Nat) (p : Progress) (cs : List Char) : Option (List Tree) :=
  match fuel, cs with
  | _, [] => p.finish?
  | 0, _ => none
  | fuel + 1, cs =>
    match step? p cs with
    | none => none
    | some (n, q) => run fuel { q with line := p.line + (cs.take n).count '\n' } (cs.drop n)

end Token

/-- The token trees of a text. -/
def Tree.ofText? (cs : List Char) : Option (List Tree) :=
  let cs := if cs.head? = some '\ufeff' then cs.drop 1 else cs
  Token.run (cs.length + 1) ⟨1, [], []⟩ cs

end CallGraph.Source
