import CallGraph.Source.Grammar

/-!
**Attributes and conditions.**

* `outerAttributes`, `innerAttributes` — the attributes in front of something, or at the start of
  its brackets;
* `oneCondition` — one condition of a list.
-/

namespace CallGraph.Source.Grammar

open Parse

/-- The path of an attribute: names between double colons. -/
def plainPath : Parse PathName := do
  let absolute ← mark? "::"
  let names ← joined "::" (fun _ => true) do
    guard (← looking fun trees => startsName trees || startsPathWord trees)
    anyWord
  return { names := names, absolute := absolute }

/-- The single name on a path, if there is no more to it. -/
def singleName (p : PathName) : Option Name :=
  if p.absolute then none
  else
    match p.names with
    | [only] => some only
    | _ => none

/-- The path at the start of an attribute, which may be the word `unsafe`. -/
def attributePath : Parse PathName := do
  if ← looking (startsWord "unsafe") then return { names := [← anyWord] } else plainPath

/-- The value after an equals sign: a string, or an expression. -/
def attributeValue (g : Grammar) : Parse (Option String × List Code) := do
  match ← get with
  | .literal _ (.text value) :: rest =>
    if rest.isEmpty || startsMark "," rest then
      set rest
      return (some value, [])
    else
      let e ← g.expression true
      return (none, [e.code])
  | trees =>
    guard (!(startsMark "#" trees && startsGroup .square (trees.drop 1)))
    let e ← g.expression true
    return (none, [e.code])

/-- One condition of a list. -/
def oneCondition (g : Grammar) : Parse Condition := do
  let name := singleName (← attributePath)
  match ← get with
  | .group _ _ inside :: rest =>
    set rest
    return .list name (whole (listed g.condition) inside)
  | trees =>
    if startsMark "=" trees then
      skip 1
      let (text, _) ← attributeValue g
      return .value name text
    else return .word name

/-- What stands between the brackets of an attribute, and the code in it. -/
def attributeContent (g : Grammar) : Parse (Attribute × List Code) := do
  let name := singleName (← attributePath)
  match ← get with
  | .group _ _ inside :: rest =>
    set rest
    return (⟨name, whole (oneCondition g) inside⟩, [])
  | trees =>
    if startsMark "=" trees then
      skip 1
      let (_, parts) ← attributeValue g
      return (⟨name, none⟩, parts)
    else return (⟨name, none⟩, [])

/-- Attributes joined to one list; the first of them starts on `line`. -/
def gather (line : Nat) (found : List (Attribute × List Code)) : Attributes where
  list := found.map (·.1)
  parts := found.flatMap (·.2)
  line := if found.isEmpty then none else some line

/-- The attributes in front of something. -/
def outerAttributes (g : Grammar) : Parse Attributes := do
  let line ← currentLine
  let found ← manyWhile (startsMark "#") do
    mark "#"
    within .square (attributeContent g)
  return gather line found

/-- The attributes at the start of the brackets of what they are about. -/
def innerAttributes (g : Grammar) : Parse Attributes := do
  let line ← currentLine
  let found ← manyWhile (fun trees => startsMark "#" trees && startsMark "!" (trees.drop 1)) do
    skip 2
    within .square (attributeContent g)
  return gather line found

end CallGraph.Source.Grammar
