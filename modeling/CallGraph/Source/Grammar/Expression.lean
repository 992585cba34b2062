import CallGraph.Source.Grammar.Pattern

/-!
**Expressions.**

Operators bind by rank. A record literal is not allowed where its brace would be taken for a block,
and an expression that ends with a block is a whole statement unless a dot follows.

* `operators` — the binary operators and their ranks;
* `expressionForm`, `unaryForm`, `continuedForm` — one more level of expressions;
* `statementForm` — an expression where it may be a statement.
-/

namespace CallGraph.Source.Grammar

open Parse

/-! ### Ranks of operators -/

namespace Rank

/-- The rank below that of all operators. -/
def lowest : Nat := 0

/-- The rank of assignments. -/
def assignment : Nat := 1

/-- The rank of ranges. -/
def range : Nat := 2

/-- The rank of comparisons. -/
def comparison : Nat := 6

/-- The rank of casts. -/
def cast : Nat := 13

end Rank

/-- The binary operators with their ranks; of two that begin alike the longer one comes first. -/
def operators : List (String × Nat) :=
  [("+=", 1), ("-=", 1), ("*=", 1), ("/=", 1), ("%=", 1), ("^=", 1), ("&=", 1), ("|=", 1),
    ("<<=", 1), (">>=", 1), ("&&", 4), ("||", 3), ("<<", 10), (">>", 10), ("==", 6), ("<=", 6),
    ("!=", 6), (">=", 6), ("+", 11), ("-", 11), ("*", 12), ("/", 12), ("%", 12), ("^", 8), ("&", 9),
    ("|", 7), ("<", 6), (">", 6)]

/-- The binary operator at the front. -/
def operator? (trees : List Tree) : Option (String × Nat) :=
  operators.find? fun (text, _) => startsMark text trees

/-- Whether an assignment follows. -/
def startsAssignment (trees : List Tree) : Bool :=
  startsMark "=" trees && !startsMark "=>" trees

/-- The rank of what follows an expression. -/
def nextRank (trees : List Tree) : Nat :=
  match operator? trees with
  | some (_, rank) => rank
  | none =>
    if startsAssignment trees then Rank.assignment
    else if startsMark ".." trees then Rank.range
    else if startsWord "as" trees then Rank.cast
    else Rank.lowest

/-! ### Binary operators -/

/-- The operand after an operator, with all that binds more tightly than it. -/
def operandWith (g : Grammar) (allow : Bool) (rank : Nat) : Nat → Expr → Parse Expr
  | 0, _ => failure
  | fuel + 1, operand => do
    let before ← get
    let next := nextRank before
    if rank < next || (next == rank && rank == Rank.assignment) then
      let longer ← g.continued operand allow next
      if (← get).length == before.length then return longer
      else operandWith g allow rank fuel longer
    else return operand

/-- The operand after an operator of some rank. -/
def operand (g : Grammar) (allow : Bool) (rank : Nat) : Parse Expr := do
  let first ← g.unary allow
  operandWith g allow rank ((← get).length + 1) first

/-- Whether a range may end before what comes. -/
def endsOpenRange (allow : Bool) (trees : List Tree) : Bool :=
  trees.isEmpty || startsDot trees || (!allow && startsGroup .curly trees) ||
    startsWord "as" trees ||
    startsAnyMark [",", ";", "?", "=>", "=", "+", "/", "%", "^", ">", "<=", "!=", "-=", "*=", "&=",
      "|=", "<<="] trees

/-- The marks of a range in code, where three dots are none. -/
def codeLimits : Parse Bool := do
  if ← mark? "..=" then return true
  else
    guard (!(← looking (startsMark "...")))
    mark ".."
    return false

/-- A range from its marks on. -/
def rangeEnd (g : Grammar) (allow : Bool) (start : List Code) : Parse Expr := do
  let closed ← codeLimits
  if !closed && (← looking (endsOpenRange allow)) then return ⟨.other start, .range⟩
  else
    let last ← operand g allow Rank.range
    return ⟨.other (start ++ [last.code]), .range⟩

/-- Whether what follows a cast cannot do so without brackets. -/
def startsPostfix (trees : List Tree) : Bool :=
  startsDot trees || startsMark "?" trees || startsGroup .square trees || startsGroup .round trees

/-- What follows an expression as long as it binds tightly enough. -/
def continuedWith (g : Grammar) (allow : Bool) (base : Nat) : Nat → Expr → Parse Expr
  | 0, _ => failure
  | fuel + 1, left => do
    let trees ← get
    if left.shape = .range then return left
    match operator? trees with
    | some (text, rank) =>
      if rank < base then return left
      let compares := rank == Rank.comparison
      guard (!(compares && left.shape = .comparison))
      skip text.length
      let right ← operand g allow rank
      continuedWith g allow base fuel
        ⟨.other [left.code, right.code], if compares then .comparison else .plain⟩
    | none =>
      if base ≤ Rank.assignment && startsAssignment trees then
        skip 1
        let right ← operand g allow Rank.assignment
        continuedWith g allow base fuel ⟨.other [left.code, right.code], .plain⟩
      else if base ≤ Rank.range && startsMark ".." trees then
        let e ← rangeEnd g allow [left.code]
        continuedWith g allow base fuel e
      else if base ≤ Rank.cast && startsWord "as" trees then
        skip 1
        let t ← g.type false
        guard (!(← looking startsPostfix))
        continuedWith g allow base fuel ⟨.other (left.code :: t.parts), .plain⟩
      else return left

/-- One more level of what follows an expression. -/
def continuedForm (g : Grammar) (left : Expr) (allow : Bool) (base : Nat) : Parse Expr := do
  continuedWith g allow base ((← get).length + 1) left

/-! ### What stands behind an expression -/

/-- The arguments of a call. -/
def callArguments (g : Grammar) : Parse (List Code) :=
  within .round (List.map Expr.code <$> listed (g.expression true))

/-- Whether some digits are a place in a tuple. -/
def isPlace (digits : String) : Bool :=
  digits.toList.all fun c => c.isDigit || c == '_'

/-- The parts of an access to a field of a field, as in `x.0.1`: whether the last one is missing. -/
def tuplePlaces (digits : String) : Option Bool :=
  let parts := Text.pieces (· == '.') digits.toList
  let given := if parts.getLast? = some [] then parts.dropLast else parts
  if given.all fun p => !p.isEmpty && isPlace (String.ofList p) then
    some (parts.getLast? = some [])
  else none

/-- A field or a method after its dot. -/
def member (g : Grammar) (e : Expr) : Parse Expr := do
  if ← word? "await" then return { code := .other [e.code] }
  match ← get with
  | .literal _ (.whole digits) :: rest =>
    guard (isPlace digits)
    set rest
    return { code := .other [e.code] }
  | _ =>
    let line ← currentLine
    let called ← name
    let turbofish ←
      if ← looking (startsMark "::") then
        mark "::"
        some <$> angleArguments g
      else pure none
    if turbofish.isSome || (← looking (startsGroup .round)) then
      let arguments ← callArguments g
      return { code := .method [] e.code called line (turbofish.getD []) arguments }
    else return { code := .other [e.code] }

/-- What follows a dot. -/
def afterDot (g : Grammar) (e : Expr) : Parse Expr := do
  match ← get with
  | .literal _ (.decimal digits) :: rest =>
    match tuplePlaces digits with
    | none => failure
    | some false =>
      set rest
      return { code := .other [e.code] }
    | some true =>
      set rest
      member g { code := .other [e.code] }
  | _ => member g e

/-- Calls, fields, methods, places and question marks behind an expression. -/
def trailersWith (g : Grammar) : Nat → Expr → Parse Expr
  | 0, _ => failure
  | fuel + 1, e => do
    let trees ← get
    if startsGroup .round trees then
      let arguments ← callArguments g
      trailersWith g fuel { code := .call [] e.code arguments }
    else if startsDot trees && e.shape ≠ .range then
      skip 1
      trailersWith g fuel (← afterDot g e)
    else if startsGroup .square trees then
      let index ← within .square (g.expression true)
      trailersWith g fuel { code := .other [e.code, index.code] }
    else if startsMark "?" trees && e.shape ≠ .range then
      skip 1
      trailersWith g fuel { code := .other [e.code] }
    else return e

/-- All that stands behind an expression. -/
def trailers (g : Grammar) (e : Expr) : Parse Expr := do
  trailersWith g ((← get).length + 1) e

/-! ### Expressions with blocks -/

/-- A block of which no attribute is expected. -/
def plainBlock (g : Grammar) : Parse (List Code) :=
  within .curly g.statements

/-- A conditional and those that follow its `else`. -/
def conditionalWith (g : Grammar) : Nat → Parse (List Code)
  | 0 => failure
  | fuel + 1 => do
    word "if"
    let test ← g.expression false
    let body ← plainBlock g
    let parts := test.code :: body
    if ← word? "else" then
      if ← looking (startsWord "if") then return parts ++ (← conditionalWith g fuel)
      else return parts ++ (← plainBlock g)
    else return parts

/-- A conditional. -/
def conditional (g : Grammar) : Parse Expr := do
  return ⟨.other (← conditionalWith g ((← get).length + 1)), .block⟩

/-- A loop with a condition. -/
def whileLoop (g : Grammar) : Parse Expr := do
  word "while"
  let test ← g.expression false
  return ⟨.other (test.code :: (← blockCode g)), .block⟩

/-- A loop over a sequence. -/
def forLoop (g : Grammar) : Parse Expr := do
  word "for"
  let pattern ← alternatives g
  word "in"
  let sequence ← g.expression false
  return ⟨.other (pattern.code :: sequence.code :: (← blockCode g)), .block⟩

/-- A loop without an end. -/
def endlessLoop (g : Grammar) : Parse Expr := do
  word "loop"
  return ⟨.other (← blockCode g), .block⟩

/-- A loop or a block with a name. -/
def labeled (g : Grammar) : Parse Expr := do
  lifetime
  mark ":"
  let trees ← get
  if startsWord "while" trees then whileLoop g
  else if startsWord "for" trees then forLoop g
  else if startsWord "loop" trees then endlessLoop g
  else return ⟨.other (← blockCode g), .block⟩

/-- Whether lifetimes for a closure follow, rather than a loop. -/
def startsBoundLifetimes (trees : List Tree) : Bool :=
  startsWord "for" trees && startsMark "<" (trees.drop 1) &&
    (startsLifetime (trees.drop 2) || startsMark ">" (trees.drop 2))

/-- A choice between patterns. -/
def choice (g : Grammar) : Parse Expr := do
  word "match"
  let value ← g.expression false
  let arms ← within .curly do
    let inner ← innerAttributes g
    let arms ← toEnd do
      let a ← outerAttributes g
      let pattern ← alternatives g
      let test ← if ← word? "if" then List.singleton <$> g.expression true else pure []
      mark "=>"
      let e ← g.statement
      if e.shape ≠ .block && !(← atEnd) then mark ","
      else
        let _ ← mark? ","
      return a.parts ++ [pattern.code] ++ test.map Expr.code ++ [e.code]
    return inner.parts ++ arms.flatten
  return ⟨.other (value.code :: arms), .block⟩

/-! ### Atoms -/

/-- Whether a closure follows. -/
def startsClosure (trees : List Tree) : Bool :=
  let next := trees.drop 1
  startsMark "|" trees || startsWord "move" trees || startsBoundLifetimes trees ||
    (startsWord "const" trees && !startsGroup .curly next) || startsWord "static" trees ||
    (startsWord "async" trees && (startsMark "|" next || startsWord "move" next))

/-- An argument of a closure. -/
def closureArgument (g : Grammar) : Parse Code := do
  let a ← outerAttributes g
  let pattern ← g.pattern
  let parts ← if ← mark? ":" then TypeForm.parts <$> g.type true else pure []
  return .other (a.parts ++ pattern.code :: parts)

/-- A closure. -/
def closure (g : Grammar) (allow : Bool) : Parse Expr := do
  let _ ← boundLifetimes? g
  let _ ← word? "const"
  let _ ← word? "static"
  let _ ← word? "async"
  let _ ← word? "move"
  mark "|"
  let inputs ← listedUntil (startsMark "|") (closureArgument g)
  mark "|"
  if ← mark? "->" then
    let output ← g.type true
    return { code := .other (inputs ++ output.parts ++ (← plainBlock g)) }
  else return { code := .other (inputs ++ [(← g.expression allow).code]) }

/-- A field of a record literal. -/
def fieldValue (g : Grammar) : Parse Code := do
  let a ← outerAttributes g
  let line ← currentLine
  match ← fieldName with
  | none =>
    mark ":"
    return .other (a.parts ++ [(← g.expression true).code])
  | some field =>
    if ← mark? ":" then return .other (a.parts ++ [(← g.expression true).code])
    else return .other (a.parts ++ [.path { names := [field] } [] line])

/-- The fields of a record literal, perhaps with a value that gives the others. -/
def fieldValues (g : Grammar) : Parse (List Code) :=
  listed do
    if ← mark? ".." then
      if ← atEnd then return .other []
      else
        let base ← g.expression true
        guard (← atEnd)
        return base.code
    else fieldValue g

/-- A path, the use of a macro, or a record literal. -/
def pathAtom (g : Grammar) (allow : Bool) : Parse Expr := do
  let p ← qualifiedPath g true
  let trees ← get
  if !p.name.qualified && startsBang trees && p.bare then
    let (d, code) ← expansion g p
    return ⟨code, .expansion d⟩
  else if allow && startsGroup .curly trees then
    let fields ← within .curly (fieldValues g)
    return { code := .record p.name (p.parts ++ fields) }
  else return { code := p.code }

/-- A list, or a value repeated. -/
def listAtom (g : Grammar) : Parse Expr :=
  within .square do
    if ← atEnd then return { code := .other [] }
    let first ← g.expression true
    if ← mark? ";" then
      let length ← g.expression true
      return { code := .other [first.code, length.code] }
    else if ← atEnd then return { code := .other [first.code] }
    else
      mark ","
      let others ← listed (g.expression true)
      return { code := .other (first.code :: others.map Expr.code) }

/-- What stands between round brackets: a tuple, or an expression. -/
def roundAtom (g : Grammar) : Parse Expr :=
  within .round do
    let inside ← listed (g.expression true)
    return { code := .other (inside.map Expr.code) }

/-- Whether an expression may begin with what comes. -/
def startsExpression (trees : List Tree) : Bool :=
  startsAnyWord trees || startsGroup .round trees || startsGroup .square trees ||
    startsGroup .curly trees || startsLiteral trees || startsBang trees ||
    (startsMark "-" trees && !startsAnyMark ["-=", "->"] trees) ||
    (startsMark "*" trees && !startsMark "*=" trees) ||
    (startsMark "|" trees && !startsMark "|=" trees) ||
    (startsMark "&" trees && !startsMark "&=" trees) || startsMark ".." trees ||
    (startsMark "<" trees && !startsAnyMark ["<=", "<<="] trees) || startsMark "::" trees ||
    startsLifetime trees || startsMark "#" trees

/-- A value that may be left out. -/
def optionalValue (g : Grammar) (allow : Bool) : Parse Expr := do
  let trees ← get
  if startsExpression trees && (allow || !startsGroup .curly trees) then
    return { code := .other [(← g.expression true).code] }
  else return { code := .other [] }

/-- The end of a loop or of a block, perhaps with a value. -/
def breakAtom (g : Grammar) (allow : Bool) : Parse Expr := do
  word "break"
  if ← lifetime? then guard (!(← looking (startsMark ":")))
  optionalValue g allow

/-- A pattern that a value has to match. -/
def letAtom (g : Grammar) (allow : Bool) : Parse Expr := do
  word "let"
  let pattern ← alternatives g
  mark "="
  let value ← g.unary allow
  let value ← g.continued value allow Rank.comparison
  return { code := .other [pattern.code, value.code] }

/-- An expression without operators. -/
def atom (g : Grammar) (allow : Bool) : Parse Expr := do
  let trees ← get
  let next := trees.drop 1
  if startsLiteral trees then
    literal
    return { code := .other [] }
  else if startsWord "async" trees &&
      (startsGroup .curly next ||
        (startsWord "move" next && startsGroup .curly (trees.drop 2))) then
    skip 1
    let _ ← word? "move"
    return { code := .other (← plainBlock g) }
  else if startsWord "try" trees && startsGroup .curly next then
    skip 1
    return ⟨.other (← plainBlock g), .block⟩
  else if startsClosure trees then closure g allow
  else if startsWord "builtin" trees && startsMark "#" next then
    skip 2
    let _ ← name
    let _ ← within .round (do set ([] : List Tree))
    return { code := .other [] }
  else if startsPath trees ||
      (startsWord "try" trees && (startsMark "!" next || startsMark "::" next)) then
    pathAtom g allow
  else if startsGroup .round trees then roundAtom g
  else if startsWord "break" trees then breakAtom g allow
  else if ← word? "continue" then
    let _ ← lifetime?
    return { code := .other [] }
  else if ← word? "return" then optionalValue g true
  else if ← word? "become" then
    let _ ← g.expression true
    return { code := .other [] }
  else if startsGroup .square trees then listAtom g
  else if startsWord "let" trees then letAtom g allow
  else if startsWord "if" trees then conditional g
  else if startsWord "while" trees then whileLoop g
  else if startsWord "for" trees then forLoop g
  else if startsWord "loop" trees then endlessLoop g
  else if startsWord "match" trees then choice g
  else if ← word? "yield" then optionalValue g true
  else if ← word? "unsafe" then return ⟨.other (← blockCode g), .block⟩
  else if ← word? "const" then return ⟨.other (← blockCode g), .block⟩
  else if startsGroup .curly trees then return ⟨.other (← blockCode g), .block⟩
  else if startsMark ".." trees then rangeEnd g allow []
  else if ← word? "_" then return { code := .other [] }
  else if startsLifetime trees then labeled g
  else failure

/-! ### Levels -/

/-- One more level of expressions without binary operators. -/
def unaryForm (g : Grammar) (allow : Bool) : Parse Expr := do
  let a ← outerAttributes g
  let trees ← get
  if startsMark "&" trees then
    skip 1
    let raw ← looking fun rest =>
      startsWord "raw" rest && (startsWord "mut" (rest.drop 1) || startsWord "const" (rest.drop 1))
    if raw then skip 2
    else
      let _ ← word? "mut"
    let e ← g.unary allow
    return Expr.withAttributes a { code := .other [e.code] }
  else if startsAnyMark ["*", "!", "-"] trees then
    skip 1
    let e ← g.unary allow
    return Expr.withAttributes a { code := .other [e.code] }
  else
    let e ← trailers g (← atom g allow)
    guard (a.list.isEmpty || e.shape ≠ .range)
    return e.withAttributes a

/-- One more level of expressions. -/
def expressionForm (g : Grammar) (allow : Bool) : Parse Expr := do
  let first ← unaryForm g allow
  continuedForm g first allow Rank.lowest

/-- Whether an expression begins that is a whole statement unless a dot or a question mark follows
it. -/
def startsBlockForm (trees : List Tree) : Bool :=
  let next := trees.drop 1
  startsWord "if" trees || startsWord "while" trees ||
    (startsWord "for" trees && !startsBoundLifetimes trees) || startsWord "loop" trees ||
    startsWord "match" trees || (startsWord "try" trees && startsGroup .curly next) ||
    startsWord "unsafe" trees || (startsWord "const" trees && startsGroup .curly next) ||
    startsGroup .curly trees || startsLifetime trees

/-- One more level of expressions where they may be statements. -/
def statementForm (g : Grammar) : Parse Expr := do
  let a ← outerAttributes g
  if ← looking startsBlockForm then
    let e ← atom g true
    if ← looking fun trees => startsDot trees || startsMark "?" trees then
      let e ← trailers g e
      continuedForm g (e.withAttributes a) true Rank.lowest
    else return e.withAttributes a
  else
    let e ← unaryForm g true
    continuedForm g (e.withAttributes a) true Rank.lowest

end CallGraph.Source.Grammar
