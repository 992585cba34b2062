import CallGraph.Json

/-!
**Tables of settings.**

A TOML document is a table that its lines fill one after the other. A table may be written once: by
a header of its own, by dotted keys, or as a value between braces, and what one of these has made
the others may not extend, except that a header may follow those of the tables inside it.

* `Toml` — a value; `Toml.toJson` — the JSON value that says the same;
* `descend` — a table with a table inside it changed;
* `insert` — a key with its value, `openTable`, `openEntry` — headers.
-/

namespace CallGraph

/-- How a table came to be. -/
inductive TableOrigin where
  /-- By a header of its own, or as the whole document. -/
  | header
  /-- On the way to the table of some header. -/
  | implied
  /-- By a dotted key. -/
  | dotted
  deriving DecidableEq, Repr

/-- A value of a TOML document. -/
inductive Toml where
  | text (s : String)
  | integer (n : Int)
  | bool (b : Bool)
  /-- A fraction or a power, of which nothing else is kept. -/
  | float
  /-- A date or a time, of which nothing else is kept. -/
  | moment
  | array (items : List Toml)
  /-- A table that is written as a value. -/
  | inline (members : List (String × Toml))
  | table (origin : TableOrigin) (members : List (String × Toml))
  /-- Tables under one header that is repeated, the last one last. -/
  | tables (entries : List (List (String × Toml)))
  deriving Inhabited

namespace Toml

/-- What a table holds. -/
abbrev Members := List (String × Toml)

/-- Members with a value under a key, in place of the one that was there. -/
def put (key : String) (v : Toml) : Members → Members
  | [] => [(key, v)]
  | (other, old) :: rest =>
    if other = key then (key, v) :: rest else (other, old) :: put key v rest

/-- A change of the table inside, given how that came to be. -/
abbrev Change := TableOrigin → Members → Option Members

/-- Changes the table that a path of keys leads to. Tables are made on the way, by `making`; with
dotted keys none that has a header is entered. -/
def descend (making : TableOrigin) (change : Change) : List String → Change
  | [], origin, members => change origin members
  | key :: rest, _, members =>
    match members.lookup key with
    | none => do
      let inner ← descend making change rest making []
      return put key (.table making inner) members
    | some (.table origin inner) => do
      if making = .dotted && origin = .header then failure
      let inner ← descend making change rest origin inner
      return put key (.table origin inner) members
    | some (.tables entries) => do
      let inner ← descend making change rest .header (← entries.getLast?)
      return put key (.tables (entries.dropLast ++ [inner])) members
    | some _ => none

/-- Adds a key that is not there yet. A dotted key adds to tables that dotted keys have made, a
plain one to the others. -/
def add (plain : Bool) (key : String) (v : Toml) : Change := fun origin members => do
  guard ((origin = .dotted) = !plain)
  guard (members.lookup key).isNone
  return members ++ [(key, v)]

/-- Adds the value of a key, which may be dotted. -/
def insert (path : List String) (v : Toml) : Change := fun origin members => do
  let before := path.dropLast
  descend .dotted (add before.isEmpty (← path.getLast?) v) before origin members

/-- The table of a header: a new one, or one that was only implied so far. -/
def openTable (path : List String) (members : Members) : Option Members := do
  let key ← path.getLast?
  descend .implied (fun _ members =>
    match members.lookup key with
    | none => some (put key (.table .header []) members)
    | some (.table .implied inner) => some (put key (.table .header inner) members)
    | some _ => none) path.dropLast .header members

/-- One more table under a header that is repeated. -/
def openEntry (path : List String) (members : Members) : Option Members := do
  let key ← path.getLast?
  descend .implied (fun _ members =>
    match members.lookup key with
    | none => some (put key (.tables [[]]) members)
    | some (.tables entries) => some (put key (.tables (entries ++ [[]])) members)
    | some _ => none) path.dropLast .header members

/-- The table between braces that holds some keys with their values. -/
def ofPairs (pairs : List (List String × Toml)) : Option Toml :=
  .inline <$> pairs.foldlM (fun members (path, v) => insert path v .header members) []

/-! ### As JSON -/

mutual

/-- The JSON value that says the same. Dates and times are no texts. -/
def toJson : Toml → Json
  | text s => .string s
  | integer n => if 0 ≤ n then .nat n.toNat else .number .other
  | bool b => .bool b
  | float => .number .other
  | moment => .object []
  | array items => .array (itemsToJson items)
  | inline members => .object (membersToJson members)
  | table _ members => .object (membersToJson members)
  | tables entries => .array (entriesToJson entries)

/-- The items of an array as JSON. -/
def itemsToJson : List Toml → List Json
  | [] => []
  | v :: rest => v.toJson :: itemsToJson rest

/-- The members of a table as JSON. -/
def membersToJson : List (String × Toml) → List (String × Json)
  | [] => []
  | (key, v) :: rest => (key, v.toJson) :: membersToJson rest

/-- Tables under one header as JSON. -/
def entriesToJson : List (List (String × Toml)) → List Json
  | [] => []
  | members :: rest => .object (membersToJson members) :: entriesToJson rest

end

end Toml

end CallGraph
