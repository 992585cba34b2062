import CallGraph.Source.Grammar.Expression

/-!
**Items.**

What stands in a module. Only functions, implementations, traits, modules and imports are kept; the
rest is read over.

* `itemAfter` — an item after its attributes;
* `useTreeForm` — one more level of imports.
-/

namespace CallGraph.Source.Grammar

open Parse

/-! ### Beginnings -/

/-- How visible something is: nothing if it does not say, else whether to all. -/
def visibility : Parse (Option Bool) := do
  if ← word? "pub" then
    match ← get with
    | .group _ .round inside :: rest =>
      if startsWord "in" inside then
        guard (whole (do word "in"; plainPath) inside).isSome
        set rest
        return some false
      else if inside.length == 1 && (startsWord "crate" inside || startsWord "self" inside ||
          startsWord "super" inside) then
        set rest
        return some false
      else return some true
    | _ => return some true
  else return none

/-- What is left after a word, if it is there. -/
def dropWord (text : String) (trees : List Tree) : List Tree :=
  if startsWord text trees then trees.drop 1 else trees

/-- What is left after the name of a calling convention, if one is given. -/
def dropConvention (trees : List Tree) : List Tree :=
  if startsWord "extern" trees then
    match trees.drop 1 with
    | .literal _ (.text _) :: rest => rest
    | rest => rest
  else trees

/-- Whether the head of a function follows. -/
def startsSignature (trees : List Tree) : Bool :=
  startsWord "fn" (dropConvention (dropWord "unsafe" (dropWord "async" (dropWord "const" trees))))

/-- The place that a method has for what it is called on. -/
def receiverArgument (g : Grammar) : Parse Unit := do
  let byReference ← mark? "&"
  if byReference then
    let _ ← lifetime?
  let _ ← word? "mut"
  word "self"
  if !byReference then
    if ← mark? ":" then
      let _ ← g.type true

/-- An argument with its type. -/
def typedArgument (g : Grammar) : Parse Unit := do
  if ← looking fun trees => startsName trees && startsMark "<" (trees.drop 1) then
    let _ ← g.type true
  else
    let _ ← g.pattern
    mark ":"
    if ← mark? "..." then pure ()
    else
      let _ ← g.type true

/-- An argument of a function: whether it is the place for what the function is called on. -/
def functionArgument (g : Grammar) : Parse Bool := do
  let _ ← outerAttributes g
  if ← mark? "..." then return false
  else (do receiverArgument g; return true) <|> (do typedArgument g; return false)

/-- The head of a function: its name and the line of its name. -/
def signature (g : Grammar) : Parse (Name × Nat) := do
  let _ ← word? "const"
  let _ ← word? "async"
  let _ ← word? "unsafe"
  if ← word? "extern" then
    let _ ← string?
  word "fn"
  let line ← currentLine
  let called ← name
  generics g
  let places ← within .round (listed (functionArgument g))
  guard (!(places.drop 1).contains true)
  if ← mark? "->" then
    let _ ← g.type true
  whereClause g
  return (called, line)

/-- A function from its body on. -/
def functionBody (g : Grammar) (a : Attributes) (isPublic : Bool) (head : Name × Nat) :
    Parse (Function Code) :=
  within .curly do
    let inner ← innerAttributes g
    let body ← g.statements
    return {
      attributes := (a ++ inner).list
      isPublic := isPublic
      name := head.1
      line := head.2
      body := body }

/-- The use of a macro as an item, perhaps with a name. -/
def macroItem (named : Bool) : Parse Unit := do
  let _ ← plainPath
  mark "!"
  if named && (← looking fun trees => startsName trees || startsWord "try" trees) then skip 1
  let (d, _) ← anyGroup
  if d ≠ .curly then mark ";"

/-- Whether a macro item may begin with what comes. -/
def startsMacroItem (trees : List Tree) : Bool :=
  startsName trees || startsPathWord trees || startsMark "::" trees

/-! ### Constants and names of types -/

/-- A constant after its first word. -/
def constantItem (g : Grammar) : Parse Unit := do
  if !(← word? "_") then
    let _ ← name
  generics g
  mark ":"
  let _ ← g.type true
  if ← mark? "=" then
    let _ ← g.expression true
  whereClause g
  mark ";"

/-- A static variable after its first word. -/
def staticItem (g : Grammar) : Parse Unit := do
  let _ ← word? "mut"
  let _ ← name
  if !(← looking (startsMark "=")) then
    mark ":"
    let _ ← g.type true
  if ← mark? "=" then
    let _ ← g.expression true
  mark ";"

/-- A name for a type after its first word. -/
def typeItem (g : Grammar) : Parse Unit := do
  let _ ← name
  generics g
  if ← mark? ":" then
    let stop (trees : List Tree) := startsWord "where" trees || startsAnyMark ["=", ";"] trees
    let _ ← separatedWith "+" stop g.bound ((← get).length + 1)
  whereClause g
  if ← mark? "=" then
    let _ ← g.type true
  whereClause g
  mark ";"

/-! ### Records, choices, foreign items -/

/-- A field with a name. -/
def namedField (g : Grammar) : Parse Unit := do
  let _ ← outerAttributes g
  let _ ← visibility
  if !(← word? "_") then
    let _ ← name
  mark ":"
  let _ ← g.type true

/-- A field without a name. -/
def unnamedField (g : Grammar) : Parse Unit := do
  let _ ← outerAttributes g
  let _ ← visibility
  let _ ← g.type true

/-- A record after its first word. -/
def structItem (g : Grammar) : Parse Unit := do
  let _ ← name
  generics g
  let asked ← looking (startsWord "where")
  whereClause g
  let trees ← get
  if !asked && startsGroup .round trees then
    let _ ← within .round (listed (unnamedField g))
    whereClause g
    mark ";"
  else if startsGroup .curly trees then
    let _ ← within .curly (listed (namedField g))
  else mark ";"

/-- One case of a choice. -/
def variant (g : Grammar) : Parse Unit := do
  let _ ← outerAttributes g
  let _ ← visibility
  let _ ← name
  let trees ← get
  if startsGroup .curly trees then
    let _ ← within .curly (listed (namedField g))
  else if startsGroup .round trees then
    let _ ← within .round (listed (unnamedField g))
  if ← mark? "=" then
    let _ ← g.expression true

/-- A choice between cases, after its first word. -/
def enumItem (g : Grammar) : Parse Unit := do
  let _ ← name
  generics g
  whereClause g
  let _ ← within .curly (listed (variant g))

/-- Overlapping fields, after the first word. -/
def unionItem (g : Grammar) : Parse Unit := do
  let _ ← name
  generics g
  whereClause g
  let _ ← within .curly (listed (namedField g))

/-- An item of another language. -/
def foreignItem (g : Grammar) : Parse Unit := do
  let _ ← outerAttributes g
  let inherited := (← visibility).isNone
  if ← looking fun trees => startsWord "safe" trees && startsSignature (trees.drop 1) then skip 1
  let trees ← get
  if startsSignature trees then
    let _ ← signature g
    if ← looking (startsGroup .curly) then
      let _ ← blockCode g
    else mark ";"
  else if startsWord "static" (dropWord "safe" (dropWord "unsafe" trees)) then
    let _ ← word? "unsafe"
    let _ ← word? "safe"
    word "static"
    staticItem g
  else if ← word? "type" then typeItem g
  else
    guard (inherited && startsMacroItem trees)
    macroItem false

/-- Items of another language, from the word that says so. -/
def foreignItems (g : Grammar) : Parse Unit := do
  let _ ← word? "unsafe"
  word "extern"
  let _ ← string?
  within .curly do
    let _ ← innerAttributes g
    let _ ← toEnd (foreignItem g)

/-- The name of a crate that is linked, after its first words. -/
def externCrate : Parse Unit := do
  if !(← word? "self") then
    let _ ← name
  if ← word? "as" then
    if !(← word? "_") then
      let _ ← name
  mark ";"

/-! ### Implementations and traits -/

/-- The texts of the trees that a reader takes. -/
def withTexts {α : Type} (p : Parse α) : Parse (α × List String) := do
  let before ← get
  let a ← p
  let after ← get
  return (a, Tree.listTexts (before.take (before.length - after.length)))

/-- Whether parameters of an implementation follow, rather than a type between angle brackets. -/
def startsParameters (trees : List Tree) : Bool :=
  let second := trees.drop 1
  let third := trees.drop 2
  startsMark "<" trees &&
    (startsMark ">" second || startsMark "#" second ||
      ((startsLifetime second || startsName second) &&
        (startsAnyMark [">", ",", "="] third || startsColon third)) ||
      startsWord "const" second)

/-- An entry of an implementation: the function, if it is one with a body. -/
def implementationEntry (g : Grammar) : Parse (Option (Function Code)) := do
  let a ← outerAttributes g
  let visible ← visibility
  let byDefault ← looking fun trees => startsWord "default" trees && !startsMark "!" (trees.drop 1)
  if byDefault then skip 1
  let trees ← get
  if startsSignature trees then
    let head ← signature g
    if ← mark? ";" then return none
    else some <$> functionBody g a (visible == some true) head
  else if ← word? "const" then
    constantItem g
    return none
  else if ← word? "type" then
    typeItem g
    return none
  else
    guard (visible.isNone && !byDefault && startsMacroItem trees)
    macroItem false
    return none

/-- An implementation. One that says it is visible, or that holds under conditions of evaluation,
is not kept. -/
def implementation (g : Grammar) (a : Attributes) : Parse Item := do
  let visible ← visibility
  let _ ← word? "default"
  let _ ← word? "unsafe"
  word "impl"
  if ← looking startsParameters then generics g
  let isConst ← do
    if ← word? "const" then pure true
    else if ← looking fun trees => startsMark "?" trees && startsWord "const" (trees.drop 1) then
      skip 2
      pure true
    else pure false
  let negative ← looking fun trees => startsMark "!" trees && !startsGroup .curly (trees.drop 1)
  if negative then skip 1
  let (first, firstTexts) ← withTexts (g.type true)
  let forType ← if ← word? "for" then some <$> withTexts (g.type true) else pure none
  guard (forType.isSome || !negative)
  whereClause g
  let (inner, entries) ← within .curly do
    let inner ← innerAttributes g
    return (inner, ← toEnd (implementationEntry g))
  let kept := visible.isNone && !isConst && (forType.isNone || first.path.isSome)
  let target := match forType with
    | some (t, texts) => ⟨t.name, texts⟩
    | none => ⟨first.name, firstTexts⟩
  let ofTrait := forType.map fun _ => ⟨first.name, firstTexts⟩
  return if kept then
    .implementation (a ++ inner).list target ofTrait (entries.filterMap id) else .other

/-- An entry of a trait: the function, if it is one with a default body. -/
def traitEntry (g : Grammar) : Parse (Option (Function Code)) := do
  let a ← outerAttributes g
  let visible ← visibility
  let byDefault ← word? "default"
  let plain := visible.isNone && !byDefault
  let trees ← get
  if startsSignature trees then
    let head ← signature g
    if ← mark? ";" then return none
    else
      let f ← functionBody g a false head
      return if plain then some f else none
  else if ← word? "const" then
    constantItem g
    return none
  else if ← word? "type" then
    typeItem g
    return none
  else
    guard (plain && startsMacroItem trees)
    macroItem false
    return none

/-- The bounds of a trait up to where `stop` holds of what comes. -/
def traitList (g : Grammar) (stop : List Tree → Bool) : Parse Unit := do
  let _ ← separatedWith "+" stop g.bound ((← get).length + 1)

/-- A trait, or a name for bounds. -/
def traitItem (g : Grammar) (a : Attributes) (isPublic : Bool) : Parse Item := do
  let special ← word? "unsafe"
  let automatic ← word? "auto"
  word "trait"
  let called ← name
  generics g
  if !special && !automatic && (← mark? "=") then
    traitList g fun trees => startsWord "where" trees || startsMark ";" trees
    whereClause g
    mark ";"
    return .other
  if ← mark? ":" then
    traitList g fun trees => startsWord "where" trees || startsGroup .curly trees
  whereClause g
  let (inner, entries) ← within .curly do
    let inner ← innerAttributes g
    return (inner, ← toEnd (traitEntry g))
  return .trait (a ++ inner).list isPublic called (entries.filterMap id)

/-! ### Modules and imports -/

/-- A module after its visibility. -/
def moduleItem (g : Grammar) (a : Attributes) : Parse Item := do
  let _ ← word? "unsafe"
  word "mod"
  let called ← if ← looking (startsWord "try") then anyWord else name
  if ← mark? ";" then return .submodule a.list called none
  else
    within .curly do
      let inner ← innerAttributes g
      return .submodule (a ++ inner).list called (some (← toEnd g.item))

/-- The name under which something is imported. -/
def shownName : Parse Name := do
  guard (← looking fun trees => startsName trees || startsWord "_" trees)
  anyWord

/-- One more level of imports; nothing if a group goes back to the root of all crates, which
`allowRoot` permits. -/
def useTreeForm (g : Grammar) (allowRoot : Bool) : Parse (Option UseTree) := do
  let trees ← get
  if startsName trees || startsWord "self" trees || startsWord "super" trees ||
      startsWord "crate" trees || startsWord "try" trees then
    let called ← anyWord
    if ← mark? "::" then
      return (← g.useTree false).map (.inside called)
    else if ← word? "as" then return some (.renamed called (← shownName))
    else return some (.leaf called)
  else if ← mark? "*" then return some .everything
  else
    within .curly do
      let found ← listed do
        let fromRoot ← if allowRoot then mark? "::" else pure false
        let tree ← g.useTree (allowRoot && !fromRoot)
        return if fromRoot then none else tree
      return if found.all Option.isSome then some (.group (found.filterMap id)) else none

/-- An import after its visibility. -/
def importItem (g : Grammar) (a : Attributes) : Parse Item := do
  word "use"
  let _ ← mark? "::"
  let tree ← g.useTree true
  mark ";"
  return (tree.map (.imports a.list)).getD .other

/-! ### All items -/

/-- Reads something and keeps nothing of it. -/
def readOver (p : Parse Unit) : Parse Item := do
  p
  return .other

/-- A function after its visibility. One without a body is not kept. -/
def functionItem (g : Grammar) (a : Attributes) (isPublic : Bool) : Parse Item := do
  let head ← signature g
  if ← mark? ";" then return .other
  else .function <$> functionBody g a isPublic head

/-- The definition of a macro by a body, after its visibility. -/
def macroDefinition : Parse Unit := do
  word "macro"
  let _ ← name
  if ← looking (startsGroup .round) then skip 1
  guard (← looking (startsGroup .curly))
  skip 1

/-- An item after its attributes. -/
def itemAfter (g : Grammar) (a : Attributes) : Parse Item := do
  let start ← get
  let visible ← visibility
  let isPublic := visible == some true
  let trees ← get
  let next := trees.drop 1
  if startsSignature trees then functionItem g a isPublic
  else if startsWord "extern" trees then
    if startsWord "crate" next then
      skip 2
      readOver externCrate
    else readOver (foreignItems g)
  else if startsWord "use" trees then importItem g a
  else if ← word? "static" then readOver (staticItem g)
  else if ← word? "const" then readOver (constantItem g)
  else if startsWord "unsafe" trees then
    if startsWord "trait" next || (startsWord "auto" next && startsWord "trait" (trees.drop 2)) then
      traitItem g a isPublic
    else if startsWord "impl" next then
      set start
      implementation g a
    else if startsWord "extern" next then readOver (foreignItems g)
    else moduleItem g a
  else if startsWord "mod" trees then moduleItem g a
  else if ← word? "type" then readOver (typeItem g)
  else if ← word? "struct" then readOver (structItem g)
  else if ← word? "enum" then readOver (enumItem g)
  else if startsWord "union" trees && startsName next then
    skip 1
    readOver (unionItem g)
  else if startsWord "trait" trees || (startsWord "auto" trees && startsWord "trait" next) then
    traitItem g a isPublic
  else if startsWord "impl" trees ||
      (startsWord "default" trees && !startsMark "!" next) then
    set start
    implementation g a
  else if startsWord "macro" trees then readOver macroDefinition
  else
    guard (visible.isNone && startsMacroItem trees)
    readOver (macroItem true)

/-- An item with its attributes. -/
def itemForm (g : Grammar) : Parse Item := do
  let a ← outerAttributes g
  itemAfter g a

end CallGraph.Source.Grammar
