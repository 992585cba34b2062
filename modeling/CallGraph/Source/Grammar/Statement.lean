import CallGraph.Source.Grammar.Item

/-!
**Statements, and whole texts.**

* `statementList` — the statements of a block;
* `grammar` — the grammar for syntax of a bounded nesting;
* `SourceTree.ofText?` — what a text says; none if it is no source text.
-/

namespace CallGraph.Source

namespace Grammar

open Parse

/-- Whether the last of some trees, of which `after` are left, is a group in braces. -/
def endsInBrace (before after : List Tree) : Bool :=
  match (before.take (before.length - after.length)).getLast? with
  | some (.group _ .curly _) => true
  | _ => false

/-- A variable, perhaps with a way out if its pattern does not match. -/
def localVariable (g : Grammar) (a : Attributes) : Parse Code := do
  word "let"
  let pattern ← g.pattern
  let type ← if ← mark? ":" then TypeForm.parts <$> g.type true else pure []
  let value ←
    if ← mark? "=" then
      let before ← get
      let e ← g.expression true
      let after ← get
      if !endsInBrace before after && (← word? "else") then
        pure (e.code :: (← plainBlock g))
      else pure [e.code]
    else pure []
  mark ";"
  return .other (a.parts ++ pattern.code :: type ++ value)

/-- Whether a definition follows rather than an expression. -/
def startsDefinition (trees : List Tree) : Bool :=
  let next := trees.drop 1
  let third := trees.drop 2
  startsWord "pub" trees || (startsWord "crate" trees && !startsMark "::" next) ||
    startsWord "extern" trees || startsWord "use" trees ||
    (startsWord "static" trees && (startsWord "mut" next || startsName next)) ||
    (startsWord "const" trees &&
      !(startsGroup .curly next || startsWord "static" next ||
        (startsWord "async" next &&
          !(startsWord "unsafe" third || startsWord "extern" third || startsWord "fn" third)) ||
        startsWord "move" next || startsMark "|" next)) ||
    (startsWord "unsafe" trees && !startsGroup .curly next) ||
    (startsWord "async" trees &&
      (startsWord "unsafe" next || startsWord "extern" next || startsWord "fn" next)) ||
    ["fn", "mod", "type", "struct", "enum", "trait", "impl", "macro"].any (startsWord · trees) ||
    (startsWord "union" trees && startsName next) ||
    (startsWord "auto" trees && startsWord "trait" next) ||
    (startsWord "default" trees && (startsWord "unsafe" next || startsWord "impl" next))

/-- What the use of a macro at the start of a statement is. -/
inductive MacroUse where
  /-- The definition of a macro, or another item. -/
  | item
  /-- A statement in braces; the path of the macro, and what comes after it. -/
  | statement (name : PathName) (rest : List Tree)
  /-- Part of an expression, or no macro at all. -/
  | expression

/-- What the use of a macro at the front is. -/
def macroUse (trees : List Tree) : MacroUse :=
  match plainPath trees with
  | none => .expression
  | some (name, rest) =>
    let next := rest.drop 1
    if !startsMark "!" rest then .expression
    else if startsName next || startsWord "try" next then .item
    else if startsGroup .curly next &&
        !(startsDot (rest.drop 2) || startsMark "?" (rest.drop 2)) then .statement name rest
    else .expression

/-- An expression as a statement, and whether another statement may follow. -/
def expressionStatement (g : Grammar) (a : Attributes) : Parse (Code × Bool) := do
  let e ← g.statement
  let code := e.code.withAttributes a
  if ← mark? ";" then return (code, true)
  else return (code, e.shape = .block || e.shape = .expansion .curly)

/-- A statement, and whether another one may follow. -/
def oneStatement (g : Grammar) : Parse (Code × Bool) := do
  let a ← outerAttributes g
  let line ← currentLine
  let trees ← get
  match macroUse trees with
  | .statement name rest =>
    set rest
    let (_, code) ← expansion g { name := name, line := line }
    let _ ← mark? ";"
    return (code.withAttributes a, true)
  | .item => return (.item (← itemAfter g a), true)
  | .expression =>
    if startsWord "let" trees then return (← localVariable g a, true)
    else if startsDefinition trees then return (.item (← itemAfter g a), true)
    else expressionStatement g a

/-- The statements of a block; empty ones leave no trace. -/
def statementList (g : Grammar) : Parse (List Code) :=
  repeated do
    let _ ← manyWhile (startsMark ";") (mark ";")
    if ← atEnd then return none
    let (code, closed) ← oneStatement g
    guard (closed || (← atEnd))
    return some code

end Grammar

/-- The grammar for syntax that is nested at most `depth` levels deep. -/
def grammar : Nat → Grammar
  | 0 => .refusing
  | depth + 1 =>
    let g := grammar depth
    { expression := g.expressionForm
      unary := g.unaryForm
      continued := g.continuedForm
      statement := g.statementForm
      type := g.typeForm
      bound := g.oneBound
      pattern := g.patternForm
      statements := g.statementList
      condition := g.oneCondition
      item := g.itemForm
      useTree := g.useTreeForm }

namespace SourceTree

/-- A text without the line that names its interpreter. The line itself stays, empty. -/
def withoutInterpreter (cs : List Char) : List Char :=
  if "#!".toList.isPrefixOf cs && (skipBlanks cs.length (cs.drop 2)).head? != some '[' then
    cs.drop (Token.lineLength cs)
  else cs
where
  /-- What is left after blanks and comments that document nothing. -/
  skipBlanks : Nat → List Char → List Char
    | 0, cs => cs
    | fuel + 1, cs =>
      match cs with
      | [] => []
      | c :: rest =>
        if Token.isSeparator c then skipBlanks fuel rest
        else
          match Token.plainComment? cs with
          | some n => skipBlanks fuel (cs.drop n)
          | none => cs

open Parse in
/-- The attributes and items of a whole text. -/
def read (g : Grammar) : Parse SourceTree := do
  let inner ← g.innerAttributes
  return ⟨inner.list, ← toEnd g.item⟩

/-- What a text says. Every level of nesting takes a character at least, so the grammar reaches deep
enough. -/
def ofText? (text : String) : Option SourceTree := do
  let cs := text.toList
  let cs := if cs.head? = some '\ufeff' then cs.drop 1 else cs
  let trees ← Tree.ofText? (withoutInterpreter cs)
  Parse.whole (read (grammar (cs.length + 8))) trees

end SourceTree

end CallGraph.Source
