import CallGraph.Source.Parse
import CallGraph.Source.Syntax

/-!
**The grammar, open in its recursion.**

Expressions hold types, types hold expressions, and both hold blocks. A `Grammar` is a reader for
each of these kinds; the modules below it say how to read one more level, given a grammar for what
stands inside. The knot is tied once, by a bound on the nesting.

* `Expr`, `TypeForm`, `PathForm`, `PatternForm`, `Attributes` — what the readers give: code, and
  what the rules around it ask about its shape;
* `Grammar` — the readers, and `Grammar.refusing`, which reads nothing.
-/

namespace CallGraph.Source

/-- The attributes in front of something. -/
structure Attributes where
  list : List Attribute := []
  /-- The code in their values. -/
  parts : List Code := []
  /-- The line of the first one. -/
  line : Option Nat := none

/-- One attribute list after another. -/
def Attributes.append (a b : Attributes) : Attributes where
  list := a.list ++ b.list
  parts := a.parts ++ b.parts
  line := a.line.or b.line

instance : Append Attributes := ⟨Attributes.append⟩

/-- Code with attributes in front of it. -/
def Code.withAttributes (a : Attributes) : Code → Code
  | .path name parts line => .path name (a.parts ++ parts) (a.line.getD line)
  | .call attributes callee arguments => .call (a.parts ++ attributes) callee arguments
  | .method attributes receiver name line generics arguments =>
    .method (a.parts ++ attributes) receiver name line generics arguments
  | .record name parts => .record name (a.parts ++ parts)
  | .expansion names line arguments =>
    if a.parts.isEmpty then .expansion names line arguments
    else .other (a.parts ++ [.expansion names line arguments])
  | .item i => .item i
  | .other parts => .other (a.parts ++ parts)

/-- What the rules around an expression ask about it. -/
inductive Shape where
  | plain
  /-- A range, which takes no operator after it. -/
  | range
  /-- A comparison, which takes no other comparison after it. -/
  | comparison
  /-- An expression that ends with a block and is a statement by itself. -/
  | block
  /-- The use of a macro, with its brackets. -/
  | expansion (d : Delimiter)
  deriving DecidableEq

/-- An expression as it is read. -/
structure Expr where
  code : Code
  shape : Shape := .plain

/-- An expression with the attributes in front of it. -/
def Expr.withAttributes (a : Attributes) (e : Expr) : Expr :=
  { e with code := e.code.withAttributes a }

/-- A path as it is read. -/
structure PathForm where
  name : PathName
  /-- The code in its type arguments. -/
  parts : List Code := []
  /-- No name on it has arguments. -/
  bare : Bool := true
  /-- Its last name has no arguments. -/
  openEnd : Bool := true
  /-- Its arguments, if there are any, stand between angle brackets. -/
  angled : Bool := true
  line : Nat

/-- The code of a path that stands for a value. -/
def PathForm.code (p : PathForm) : Code :=
  .path p.name p.parts p.line

/-- A type as it is read. -/
structure TypeForm where
  /-- The code in it. -/
  parts : List Code := []
  /-- Its last name, if it is a path or refers to one. -/
  name : Option Name := none
  /-- The path, if the type is one. -/
  path : Option PathForm := none
  /-- A bound that another one may be added to. -/
  isBound : Bool := false

/-- A pattern as it is read. -/
structure PatternForm where
  /-- The code in it. -/
  code : Code := .other []
  /-- A range that lacks one of its ends. -/
  isOpenRange : Bool := false

/-- Readers for the kinds of syntax that hold each other. -/
structure Grammar where
  /-- An expression; the flag says whether it may be a record literal. -/
  expression : Bool → Parse Expr
  /-- An expression without binary operators. -/
  unary : Bool → Parse Expr
  /-- What follows an expression, given the rank that an operator has to have. -/
  continued : Expr → Bool → Nat → Parse Expr
  /-- An expression where it may be a statement. -/
  statement : Parse Expr
  /-- A type; the flag says whether bounds may be added to it. -/
  type : Bool → Parse TypeForm
  /-- What a type parameter is asked for: whether it is a trait, and the code in it. -/
  bound : Parse (Bool × List Code)
  /-- A pattern without alternatives. -/
  pattern : Parse PatternForm
  /-- The statements of a block. -/
  statements : Parse (List Code)
  condition : Parse Condition
  item : Parse Item
  useTree : Bool → Parse (Option UseTree)

/-- The grammar that reads nothing. -/
def Grammar.refusing : Grammar where
  expression _ := failure
  unary _ := failure
  continued _ _ _ := failure
  statement := failure
  type _ := failure
  bound := failure
  pattern := failure
  statements := failure
  condition := failure
  item := failure
  useTree _ := failure

end CallGraph.Source
