import CallGraph.Json.Fragment

/-!
**Reading values of a known shape.**

A reader of a shape looks at a fragment from left to right and stops at the first problem: either
the text is no JSON (`Fault.syntax`), or it is, as far as it was read, but does not have the shape
(`Fault.data`).

* `Fault` — the two kinds of problem;
* `text`, `natural`, `boolean`, `optional`, `list` — readers of simple shapes;
* `RecordField`, `record` — a record, written as an object or as an array of its fields in order.
  Unknown members are passed over, a known one may come once;
* `value` — any value, nested at most so deep;
* `readText` — a whole text.
-/

namespace CallGraph.Json

/-- What can be wrong with a text. -/
inductive Fault where
  /-- The text is no JSON. -/
  | syntaxFault
  /-- The text does not have the shape that was asked for. -/
  | dataFault
  deriving DecidableEq, Repr

namespace Fault

/-- The word a fault is shown by. -/
def name : Fault → String
  | syntaxFault => "syntax"
  | dataFault => "data"

end Fault

/-- Reads a shape from a fragment. -/
abbrev Decoder (α : Type) := Fragment → Except Fault α

/-- The fault of a value that has another shape than the one asked for. The text itself is at fault
if it cannot even be told what the value is. -/
def mismatch : Fragment → Fault
  | .missing | .halfString | .number .tooLarge => .syntaxFault
  | _ => .dataFault

/-- Reads a text. -/
def text : Decoder String
  | .string s => .ok s
  | f => .error (mismatch f)

/-- Reads a natural number up to a bound. -/
def natural (bound : Nat) : Decoder Nat
  | .number (.natural n) => if n ≤ bound then .ok n else .error .dataFault
  | f => .error (mismatch f)

/-- Reads a truth value. -/
def boolean : Decoder Bool
  | .bool b => .ok b
  | f => .error (mismatch f)

/-- Reads a value that may be null. -/
def optional {α : Type} (d : Decoder α) : Decoder (Option α)
  | .null => .ok none
  | f => (d f).map some

/-- Reads the items of an array. -/
def list {α : Type} (d : Decoder α) : Decoder (List α)
  | .array items closed => do
    let read ← items.mapM d
    if closed then return read else throw .syntaxFault
  | f => .error (mismatch f)

/-! ### Records -/

/-- A field of a record `σ`. -/
structure RecordField (σ : Type) where
  name : String
  /-- An object has to give the field. -/
  required : Bool
  /-- An array has to give the field. -/
  placed : Bool
  /-- Reads the value and puts it into the record. -/
  store : σ → Decoder σ

/-- A field that may be left out. -/
def RecordField.maybe {σ α : Type} (name : String) (d : Decoder α) (set : σ → α → σ) :
    RecordField σ :=
  ⟨name, false, false, fun s f => (d f).map (set s)⟩

/-- A field that has to be given. -/
def RecordField.must {σ α : Type} (name : String) (d : Decoder α) (set : σ → α → σ) :
    RecordField σ :=
  ⟨name, true, true, fun s f => (d f).map (set s)⟩

/-- A field that an object may leave out, but not an array. -/
def RecordField.named {σ α : Type} (name : String) (d : Decoder α) (set : σ → α → σ) :
    RecordField σ :=
  ⟨name, false, true, fun s f => (d f).map (set s)⟩

/-- Passes over a value of whatever shape. -/
def passOver (f : Fragment) : Except Fault Unit :=
  if f.isWhole then .ok () else .error .syntaxFault

/-- Reads the members of an object into a record. `seen` names the fields that have been given. -/
def readMembers {σ : Type} (fields : List (RecordField σ)) (closed : Bool) (seen : List String)
    (s : σ) : List (Option String × Fragment) → Except Fault σ
  | [] =>
    if !closed then .error .syntaxFault
    else if fields.any fun field => field.required && !seen.contains field.name then
      .error .dataFault
    else .ok s
  | (none, _) :: _ => .error .syntaxFault
  | (some key, f) :: rest =>
    match fields.find? (·.name == key) with
    | none => do
      passOver f
      readMembers fields closed seen s rest
    | some field =>
      if seen.contains key then .error .dataFault
      else do
        let s ← field.store s f
        readMembers fields closed (key :: seen) s rest

/-- Reads the items of an array into a record, field by field. -/
def readInOrder {σ : Type} (closed : Bool) (s : σ) :
    List (RecordField σ) → List Fragment → Except Fault σ
  | [], [] => if closed then .ok s else .error .syntaxFault
  | [], _ :: _ => .error .syntaxFault
  | fields, [] =>
    if !closed then .error .syntaxFault
    else if fields.any (·.placed) then .error .dataFault
    else .ok s
  | field :: fields, f :: rest => do
    let s ← field.store s f
    readInOrder closed s fields rest

/-- Reads a record, starting from one that holds what is not given. -/
def record {σ : Type} (fields : List (RecordField σ)) (defaults : σ) : Decoder σ
  | .object members closed => readMembers fields closed [] defaults members
  | .array items closed => readInOrder closed defaults fields items
  | f => .error (mismatch f)

/-! ### Any value -/

/-- Puts a member into an object; a key that is given again keeps its place and takes the new
value. -/
def setMember (key : String) (j : Json) : List (String × Json) → List (String × Json)
  | [] => [(key, j)]
  | (other, old) :: rest =>
    if key = other then (key, j) :: rest else (other, old) :: setMember key j rest

mutual

/-- Reads any value that is nested at most `depth` levels deep. -/
def value (depth : Nat) : Decoder Json
  | .null => .ok .null
  | .bool b => .ok (.bool b)
  | .number .tooLarge => .error .syntaxFault
  | .number n => .ok (.number n)
  | .string s => .ok (.string s)
  | .halfString => .error .syntaxFault
  | .missing => .error .syntaxFault
  | .array items closed =>
    if depth = 0 then .error .syntaxFault
    else do
      let read ← values (depth - 1) items
      if closed then return .array read else throw .syntaxFault
  | .object members closed =>
    if depth = 0 then .error .syntaxFault
    else do
      let read ← memberValues (depth - 1) [] members
      if closed then return .object read else throw .syntaxFault

/-- Reads values that are each nested at most `depth` levels deep. -/
def values (depth : Nat) : List Fragment → Except Fault (List Json)
  | [] => .ok []
  | f :: rest => do
    let j ← value depth f
    let js ← values depth rest
    return j :: js

/-- Reads members whose values are each nested at most `depth` levels deep. -/
def memberValues (depth : Nat) (read : List (String × Json)) :
    List (Option String × Fragment) → Except Fault (List (String × Json))
  | [] => .ok read
  | (none, _) :: _ => .error .syntaxFault
  | (some key, f) :: rest => do
    let j ← value depth f
    memberValues depth (setMember key j read) rest

end

/-- Reads a whole text. -/
def readText {α : Type} (d : Decoder α) (text : String) : Except Fault α := do
  let (f, complete) := Fragment.ofText text
  let a ← d f
  if complete then return a else throw .syntaxFault

/-- Reads a value. -/
def readJson {α : Type} (d : Decoder α) (j : Json) : Except Fault α :=
  d (Fragment.ofJson j)

end CallGraph.Json
