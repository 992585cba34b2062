import CallGraph.Source.Grammar.Attribute

/-!
**Paths and types.**

* `path`, `qualifiedPath` — paths in types and, with arguments only after a double colon, in code;
* `typeForm`, `oneBound` — one more level of types, and of what type parameters are asked for;
* `generics`, `whereClause` — the parameters of an item; the code in them belongs to no body.
-/

namespace CallGraph.Source.Grammar

open Parse

/-! ### Arguments of a path -/

/-- A block: attributes at its start and statements. -/
def blockCode (g : Grammar) : Parse (List Code) :=
  within .curly do
    let inner ← innerAttributes g
    return inner.parts ++ (← g.statements)

/-- The value of a parameter that is a constant. -/
def constArgument (g : Grammar) : Parse (List Code) := do
  let trees ← get
  if startsLiteral trees then
    literal
    return []
  else if startsName trees then
    let line ← currentLine
    return [.path { names := [← name] } [] line]
  else blockCode g

/-- A lifetime parameter, perhaps with the lifetimes it outlives. -/
def lifetimeParameter (stop : List Tree → Bool) : Parse Unit := do
  lifetime
  if ← looking startsColon then
    mark ":"
    let _ ← separatedWith "+" stop lifetime ((← get).length + 1)

/-- The lifetimes after `for`, if there are any. -/
def boundLifetimes? (g : Grammar) : Parse Bool := do
  if ← word? "for" then
    mark "<"
    let _ ← listedUntil (startsMark ">") do
      let _ ← outerAttributes g
      lifetimeParameter (startsAnyMark [",", ">"])
    mark ">"
    return true
  else return false

/-- The types of an argument list between round brackets, and the type after it. -/
def callTypes (g : Grammar) : Parse (List Code) := do
  let inputs ← within .round (listed (g.type true))
  let output ← if ← mark? "->" then TypeForm.parts <$> g.type false else pure []
  return inputs.flatMap TypeForm.parts ++ output

/-- Whether types between round brackets follow, perhaps after a double colon. -/
def startsCallTypes (trees : List Tree) : Bool :=
  startsGroup .round trees || (startsMark "::" trees && startsGroup .round (trees.drop 2))

/-- One argument between angle brackets. -/
def genericArgument (g : Grammar) : Parse (List Code) := do
  let trees ← get
  if startsLifetime trees && !startsMark "+" (trees.drop 1) then
    lifetime
    return []
  else if startsLiteral trees || startsGroup .curly trees then constArgument g
  else
    let t ← g.type true
    let isName := t.path.any fun p =>
      p.angled && !p.name.absolute && p.name.names.length == 1
    if isName && (← looking (startsMark "=")) then
      mark "="
      let rest ← get
      if startsLiteral rest || startsGroup .curly rest then
        return t.parts ++ (← constArgument g)
      else return t.parts ++ (← g.type true).parts
    else if isName && (← looking (startsMark ":")) then
      mark ":"
      let found ←
        separatedWith "+" (startsAnyMark [",", ">"]) g.bound ((← get).length + 1)
      return t.parts ++ found.flatMap (·.2)
    else return t.parts

/-- The arguments between angle brackets. -/
def angleArguments (g : Grammar) : Parse (List Code) := do
  mark "<"
  let arguments ← listedUntil (startsMark ">") (genericArgument g)
  mark ">"
  return arguments.flatten

/-! ### Paths -/

/-- A name on a path, with the code in its arguments if it has some. In code, arguments stand after
a double colon only. -/
def pathSegment (g : Grammar) (inCode : Bool) : Parse (Name × Option (List Code)) := do
  let trees ← get
  if startsWord "super" trees || startsWord "self" trees || startsWord "crate" trees ||
      startsWord "try" trees then
    return (← anyWord, none)
  let called ← if startsWord "Self" trees then anyWord else name
  let rest ← get
  if (!inCode && startsMark "<" rest && !startsMark "<=" rest) ||
      (startsMark "::" rest && startsMark "<" (rest.drop 2)) then
    let _ ← mark? "::"
    return (called, some (← angleArguments g))
  else return (called, none)

/-- A path from its names and their arguments. -/
def makePath (line : Nat) (absolute : Bool) (segments : List (Name × Option (List Code))) :
    PathForm where
  name := { names := segments.map (·.1), absolute := absolute }
  parts := segments.flatMap fun s => s.2.getD []
  bare := segments.all fun s => s.2.isNone
  openEnd := segments.getLast?.any fun s => s.2.isNone
  line := line

/-- A path. -/
def path (g : Grammar) (inCode : Bool) : Parse PathForm := do
  let line ← currentLine
  let absolute ← mark? "::"
  let first ← pathSegment g inCode
  let others ← manyWhile
    (fun trees => startsMark "::" trees && !startsGroup .round (trees.drop 2))
    (do mark "::"; pathSegment g inCode)
  return makePath line absolute (first :: others)

/-- A path, perhaps one that starts with a type between angle brackets. The names of the trait that
such a path goes through count as its own. -/
def qualifiedPath (g : Grammar) (inCode : Bool) : Parse PathForm := do
  if ← looking (startsMark "<") then
    let line ← currentLine
    mark "<"
    let this ← g.type true
    let through ← if ← word? "as" then some <$> path g false else pure none
    mark ">"
    mark "::"
    let first ← pathSegment g inCode
    let others ← manyWhile (startsMark "::") (do mark "::"; pathSegment g inCode)
    let below := makePath line true (first :: others)
    return { below with
      name := {
        names := ((through.map (·.name.names)).getD []) ++ below.name.names
        absolute := (through.map (·.name.absolute)).getD true
        qualified := true }
      parts := this.parts ++ ((through.map (·.parts)).getD []) ++ below.parts
      bare := below.bare && (through.map (·.bare)).getD true }
  else path g inCode

/-- The types between round brackets that may follow the last name of a path. -/
def withCallTypes (g : Grammar) (p : PathForm) : Parse PathForm := do
  if p.openEnd && (← looking startsCallTypes) then
    let _ ← mark? "::"
    let parts ← callTypes g
    return { p with parts := p.parts ++ parts, bare := false, openEnd := false, angled := false }
  else return p

/-! ### Bounds -/

/-- A trait that a type parameter is asked for. -/
def traitBound (g : Grammar) : Parse (List Code) := do
  let _ ← boundLifetimes? g
  if ← looking (startsGroup .square) then within .square (word "const")
  else if ← word? "const" then pure ()
  else if ← looking fun trees => startsMark "~" trees && startsWord "const" (trees.drop 1) then
    skip 2
  if ← mark? "?" then
    let _ ← boundLifetimes? g
  let p ← withCallTypes g (← path g false)
  return p.parts

/-- What a type parameter is asked for: a lifetime, the parameters that it captures, or a trait. -/
def oneBound (g : Grammar) : Parse (Bool × List Code) := do
  let trees ← get
  if startsLifetime trees then
    lifetime
    return (false, [])
  else if startsWord "use" trees then
    skip 1
    mark "<"
    let _ ← listedUntil (startsMark ">") do
      if ← lifetime? then pure ()
      else
        guard (← looking fun rest => startsName rest || startsWord "Self" rest)
        skip 1
    mark ">"
    return (false, [])
  else if startsGroup .round trees then return (true, ← within .round (traitBound g))
  else return (true, ← traitBound g)

/-- Whether a bound stands at the front. -/
def startsBound (trees : List Tree) : Bool :=
  startsAnyWord trees || startsMark "::" trees || startsMark "?" trees || startsMark "~" trees ||
    startsLifetime trees || startsGroup .round trees

/-- The bounds of a type that is known by its traits alone; there has to be a trait among them. -/
def traitBounds (g : Grammar) (allowPlus : Bool) : Parse (List Code) := do
  let found ←
    if allowPlus then joined "+" startsBound (oneBound g) else List.singleton <$> oneBound g
  guard (found.any (·.1))
  return found.flatMap (·.2)

/-- The bounds that follow another one. -/
def moreBounds (g : Grammar) : Parse (List Code) := do
  if ← mark? "+" then
    if ← looking startsBound then
      let found ← joined "+" startsBound (oneBound g)
      return found.flatMap (·.2)
  return []

/-! ### Types -/

/-- The arguments and the result of a function pointer, from its first word. -/
def functionPointer (g : Grammar) : Parse TypeForm := do
  let _ ← word? "unsafe"
  if ← word? "extern" then
    let _ ← string?
  word "fn"
  let inputs ← within .round <| listed do
    let a ← outerAttributes g
    if ← looking fun trees => startsWord "mut" trees && startsWord "self" (trees.drop 1) then skip 1
    if ← looking fun trees =>
        (startsName trees || startsWord "_" trees || startsWord "self" trees) &&
          startsColon (trees.drop 1) then
      skip 2
    if ← mark? "..." then return a.parts else return a.parts ++ (← g.type true).parts
  let output ← if ← mark? "->" then TypeForm.parts <$> g.type false else pure []
  return { parts := inputs.flatten ++ output }

/-- Whether types between round brackets are a single bound, and no tuple. -/
def isOneBound (inside : List Tree) : List TypeForm → Bool
  | [t] =>
    t.isBound &&
      match inside.getLast? with
      | some (.mark _ ',' _) => false
      | _ => true
  | _ => false

/-- What stands between round brackets where a type is expected. -/
def parenthesizedType (g : Grammar) (allowPlus : Bool) : Parse TypeForm := do
  let (_, inside) ← anyGroup
  if inside.isEmpty then return {}
  else if startsLifetime inside then
    match whole (traitBounds g true) inside with
    | some parts => return { parts := parts }
    | none => failure
  else if startsMark "?" inside then
    match whole (traitBound g) inside with
    | some parts => return { parts := parts ++ (← moreBounds g) }
    | none => failure
  else
    match whole (listed (g.type true)) inside with
    | none => failure
    | some types =>
      let parts := types.flatMap TypeForm.parts
      if allowPlus && (← looking (startsMark "+")) && isOneBound inside types then
        return { parts := parts ++ (← moreBounds g) }
      else return { parts := parts }

/-- Whether a path stands at the front. -/
def startsPath (trees : List Tree) : Bool :=
  startsName trees || startsPathWord trees || startsMark "::" trees || startsMark "<" trees

/-- The use of a macro after its path. -/
def expansion (g : Grammar) (p : PathForm) : Parse (Delimiter × Code) := do
  mark "!"
  let (d, inside) ← anyGroup
  let arguments := whole (listed (g.expression true)) inside
  return (d, .expansion p.name.names p.line ((arguments.getD []).map Expr.code))

/-- A type that starts with a path. -/
def pathType (g : Grammar) (allowPlus bound : Bool) : Parse TypeForm := do
  let p ← qualifiedPath g false
  if p.name.qualified then return { parts := p.parts, name := p.name.names.getLast? }
  let p ← withCallTypes g p
  if p.bare && (← looking startsBang) then
    let (_, code) ← expansion g p
    return { parts := [code] }
  else if bound || (allowPlus && (← looking (startsMark "+"))) then
    let more ← if allowPlus then moreBounds g else pure []
    return { parts := p.parts ++ more, isBound := true }
  else
    return { parts := p.parts, name := p.name.names.getLast?, path := some p, isBound := true }

/-- One more level of types. -/
def typeForm (g : Grammar) (allowPlus : Bool) : Parse TypeForm := do
  let bound ← boundLifetimes? g
  let trees ← get
  if bound then
    guard (startsName trees || startsPathWord trees || startsWord "fn" trees ||
      startsWord "unsafe" trees || startsWord "extern" trees)
  if startsGroup .round trees then parenthesizedType g allowPlus
  else if startsWord "fn" trees || startsWord "unsafe" trees || startsWord "extern" trees then
    functionPointer g
  else if startsPath trees then pathType g allowPlus bound
  else if ← word? "dyn" then
    let _ ← mark? "*"
    return { parts := ← traitBounds g allowPlus }
  else if startsGroup .square trees then
    within .square do
      let element ← g.type true
      if ← mark? ";" then
        return { parts := element.parts ++ [(← g.expression true).code] }
      else return { parts := element.parts }
  else if ← mark? "*" then
    if !(← word? "const") then word "mut"
    return { parts := (← g.type false).parts }
  else if ← mark? "&" then
    let _ ← lifetime?
    let _ ← word? "mut"
    let inner ← g.type false
    return { parts := inner.parts, name := inner.name }
  else if ← mark? "!" then return {}
  else if ← word? "impl" then return { parts := ← traitBounds g allowPlus }
  else if ← word? "_" then return {}
  else if startsLifetime trees then return { parts := ← traitBounds g allowPlus }
  else failure

/-! ### Parameters of an item -/

/-- One parameter of an item. -/
def genericParameter (g : Grammar) : Parse Unit := do
  let _ ← outerAttributes g
  let trees ← get
  if startsLifetime trees then lifetimeParameter (startsAnyMark [",", ">"])
  else if ← word? "const" then
    let _ ← name
    mark ":"
    let _ ← g.type true
    if ← mark? "=" then
      let _ ← constArgument g
  else
    if startsWord "_" trees then skip 1 else let _ ← name
    if ← mark? ":" then
      let _ ← separatedWith "+" (startsAnyMark [",", ">", "="]) g.bound ((← get).length + 1)
    if ← mark? "=" then
      let _ ← g.type true

/-- The parameters of an item, if it has some. -/
def generics (g : Grammar) : Parse Unit := do
  if ← looking (startsMark "<") then
    mark "<"
    let _ ← listedUntil (startsMark ">") (genericParameter g)
    mark ">"

/-- Whether the conditions on type parameters end before what comes. -/
def endsWhere (trees : List Tree) : Bool :=
  trees.isEmpty || startsGroup .curly trees || startsMark "," trees || startsMark ";" trees ||
    startsColon trees || startsMark "=" trees

/-- One condition on type parameters. -/
def wherePredicate (g : Grammar) : Parse Unit := do
  if ← looking fun trees => startsLifetime trees && startsMark ":" (trees.drop 1) then
    skip 2
    let _ ← separatedWith "+" endsWhere lifetime ((← get).length + 1)
  else
    let _ ← boundLifetimes? g
    let _ ← g.type true
    mark ":"
    let _ ← separatedWith "+" endsWhere g.bound ((← get).length + 1)

/-- Conditions between commas; after the last one there may be a comma too. -/
def wherePredicates (g : Grammar) : Nat → Parse Unit
  | 0 => failure
  | fuel + 1 => do
    if !(← looking endsWhere) then
      wherePredicate g
      if ← mark? "," then wherePredicates g fuel

/-- The conditions on type parameters, if there are any. -/
def whereClause (g : Grammar) : Parse Unit := do
  if ← word? "where" then wherePredicates g ((← get).length + 1)

end CallGraph.Source.Grammar
