import CallGraph.Source.Grammar.Type

/-!
**Patterns.**

Patterns call nothing, but the paths in them may name values, and the constants in them are code.

* `patternForm` — one more level of patterns, without alternatives;
* `alternatives` — patterns between vertical lines.
-/

namespace CallGraph.Source.Grammar

open Parse

/-- The name of a field: a name or a number. -/
def fieldName : Parse (Option Name) := do
  match ← get with
  | .literal _ (.whole _) :: rest => set rest; return none
  | _ => some <$> name

/-- Patterns between vertical lines, one of which may stand in front. -/
def alternatives (g : Grammar) : Parse PatternForm := do
  let leading ← mark? "|"
  let first ← g.pattern
  let others ← manyWhile startsBar (do mark "|"; g.pattern)
  if leading || !others.isEmpty then
    return { code := .other ((first :: others).map PatternForm.code) }
  else return first

/-- Whether the end of a range is left out before what comes. -/
def endsRange (trees : List Tree) : Bool :=
  trees.isEmpty || startsAnyMark ["|", "=", ",", ";"] trees || startsColon trees ||
    startsWord "if" trees

/-- A path as an end of a range. -/
def pathValue (g : Grammar) : Parse Code := do
  let a ← outerAttributes g
  let p ← qualifiedPath g true
  return p.code.withAttributes a

/-- An end of a range, unless it is left out. -/
def rangeBound (g : Grammar) : Parse (Option Code) := do
  let trees ← get
  if endsRange trees then return none
  else if startsLiteral trees then
    literal
    return some (.other [])
  else if startsPath trees then some <$> pathValue g
  else if ← word? "const" then return some (.other (← blockCode g))
  else failure

/-- The marks of a range: whether its end belongs to it. -/
def rangeLimits : Parse Bool := do
  if ← mark? "..=" then return true
  else if ← mark? "..." then return true
  else
    mark ".."
    return false

/-- A range whose start is read. -/
def rangeFrom (g : Grammar) (start : Code) : Parse PatternForm := do
  let closed ← rangeLimits
  match ← rangeBound g with
  | some last => return { code := .other [start, last] }
  | none =>
    guard (!closed)
    return { code := .other [start], isOpenRange := true }

/-- A range without a start, or a mark for all that is left. -/
def rangeTo (g : Grammar) : Parse PatternForm := do
  let closed ← mark? "..="
  if !closed then mark ".."
  match ← rangeBound g with
  | some last => return { code := .other [last], isOpenRange := true }
  | none =>
    guard (!closed)
    return {}

/-- A field of a record. -/
def fieldPattern (g : Grammar) : Parse Code := do
  let boxed ← word? "box"
  let byRef ← word? "ref"
  let mutable ← word? "mut"
  let simple := !boxed && !byRef && !mutable
  let field ← if simple then fieldName else some <$> name
  if (simple && (← looking (startsMark ":"))) || field.isNone then
    mark ":"
    return (← alternatives g).code
  else return .other []

/-- The fields of a record, perhaps with a mark for those left out. -/
def fieldPatterns (g : Grammar) : Parse (List Code) :=
  listed do
    let a ← outerAttributes g
    if ← looking (startsMark "..") then
      mark ".."
      guard (← atEnd)
      return .other a.parts
    else return .other [.other a.parts, ← fieldPattern g]

/-- A pattern that starts with a path. -/
def pathPattern (g : Grammar) : Parse PatternForm := do
  let p ← qualifiedPath g true
  let trees ← get
  if !p.name.qualified && startsBang trees && p.bare then
    return { code := (← expansion g p).2 }
  else if startsGroup .curly trees then
    return { code := .other (p.parts ++ (← within .curly (fieldPatterns g))) }
  else if startsGroup .round trees then
    let inside ← within .round (listed (alternatives g))
    return { code := .other (p.parts ++ inside.map PatternForm.code) }
  else if startsMark ".." trees then rangeFrom g p.code
  else return { code := p.code }

/-- A literal or a constant, perhaps as the start of a range. -/
def literalPattern (g : Grammar) : Parse PatternForm := do
  match ← rangeBound g with
  | none => failure
  | some start =>
    if ← looking (startsMark "..") then rangeFrom g start else return { code := start }

/-- A name to bind, perhaps with a pattern for what it is bound to. -/
def bindingPattern (g : Grammar) : Parse PatternForm := do
  let _ ← word? "ref"
  let _ ← word? "mut"
  if !(← word? "self") then
    let _ ← name
  if ← mark? "@" then return { code := .other [(← g.pattern).code] } else return {}

/-- Whether a name at the front begins a path rather than standing for itself. -/
def startsPathPattern (trees : List Tree) : Bool :=
  let next := trees.drop 1
  (startsName trees && (startsMark "::" next || startsMark "!" next || startsGroup .curly next ||
      startsGroup .round next || startsMark ".." next)) ||
    (startsWord "self" trees && startsMark "::" next) || startsMark "::" trees ||
    startsMark "<" trees || startsWord "Self" trees || startsWord "super" trees ||
    startsWord "crate" trees

/-- One more level of patterns, without alternatives. -/
def patternForm (g : Grammar) : Parse PatternForm := do
  let trees ← get
  if startsPathPattern trees then pathPattern g
  else if ← word? "_" then return {}
  else if ← word? "box" then
    let _ ← g.pattern
    return {}
  else if startsMark "-" trees || startsLiteral trees || startsWord "const" trees then
    literalPattern g
  else if startsWord "ref" trees || startsWord "mut" trees || startsWord "self" trees ||
      startsName trees then
    bindingPattern g
  else if ← mark? "&" then
    let _ ← word? "mut"
    return { code := (← g.pattern).code }
  else if startsGroup .round trees then
    let inside ← within .round (listed (alternatives g))
    return { code := .other (inside.map PatternForm.code) }
  else if startsGroup .square trees then
    let inside ← within .square (listed (alternatives g))
    guard (inside.all fun p => !p.isOpenRange)
    return { code := .other (inside.map PatternForm.code) }
  else if startsMark ".." trees && !startsMark "..." trees then rangeTo g
  else failure

end CallGraph.Source.Grammar
