import CallGraph.Text

/-!
**JSON values, and how they are written.**

* `Json` — a value; numbers that are not natural are told apart from those that are, no more;
* `compact`, `pretty` — a value as text, on one line or indented by two blanks.
-/

namespace CallGraph

/-- The numbers as far as they matter here. -/
inductive JsonNumber where
  /-- A natural number that fits into a word of 64 bits. -/
  | natural (n : Nat)
  /-- A negative number, a fraction, a power or a larger number. -/
  | other
  /-- A number too large for a double. -/
  | tooLarge
  deriving DecidableEq, Repr

/-- A JSON value. -/
inductive Json where
  | null
  | bool (b : Bool)
  | number (n : JsonNumber)
  | string (s : String)
  | array (items : List Json)
  | object (members : List (String × Json))
  deriving Inhabited

namespace Json

/-- The member of an object with a key. -/
def member? (j : Json) (key : String) : Option Json :=
  match j with
  | object members => members.lookup key
  | _ => none

/-- A natural number as a value. -/
def nat (n : Nat) : Json :=
  .number (.natural n)

/-- The escape of a character by its number. -/
def escapeCode (c : Char) : List Char :=
  let digits := Nat.toDigits 16 c.toNat
  ['\\', 'u'] ++ List.replicate (4 - digits.length) '0' ++ digits

/-- A character as it stands between the quotes of a string. -/
def escapeChar (c : Char) : List Char :=
  if c = '"' then ['\\', '"']
  else if c = '\\' then ['\\', '\\']
  else if c = '\n' then ['\\', 'n']
  else if c = '\r' then ['\\', 'r']
  else if c = '\t' then ['\\', 't']
  else if c = '\x08' then ['\\', 'b']
  else if c = '\x0c' then ['\\', 'f']
  else if c.toNat < 32 then escapeCode c
  else [c]

/-- A string between quotes. -/
def quote (s : String) : String :=
  "\"" ++ Text.encode escapeChar s ++ "\""

/-- The text of a number. -/
def numberText : JsonNumber → String
  | .natural n => n.repr
  | .other | .tooLarge => "0"

/-- The line break before an entry that stands `depth` levels deep. -/
def newLine (depth : Nat) : String :=
  "\n" ++ String.ofList (List.replicate (2 * depth) ' ')

mutual

/-- A value on one line. -/
def compact : Json → String
  | null => "null"
  | bool b => if b then "true" else "false"
  | number n => numberText n
  | string s => quote s
  | array items => "[" ++ ",".intercalate (compactItems items) ++ "]"
  | object members => "\x7b" ++ ",".intercalate (compactMembers members) ++ "\x7d"

/-- The items of an array, each on one line. -/
def compactItems : List Json → List String
  | [] => []
  | j :: rest => j.compact :: compactItems rest

/-- The members of an object, each on one line. -/
def compactMembers : List (String × Json) → List String
  | [] => []
  | (key, j) :: rest => (quote key ++ ":" ++ j.compact) :: compactMembers rest

end

mutual

/-- A value on lines of its own, where the line it starts on stands `depth` levels deep. -/
def prettyAt (depth : Nat) : Json → String
  | null => "null"
  | bool b => if b then "true" else "false"
  | number n => numberText n
  | string s => quote s
  | array [] => "[]"
  | array (j :: items) =>
    "[" ++ newLine (depth + 1) ++
      ("," ++ newLine (depth + 1)).intercalate (prettyItems (depth + 1) (j :: items)) ++
      newLine depth ++ "]"
  | object [] => "\x7b\x7d"
  | object (m :: members) =>
    "\x7b" ++ newLine (depth + 1) ++
      ("," ++ newLine (depth + 1)).intercalate (prettyMembers (depth + 1) (m :: members)) ++
      newLine depth ++ "\x7d"

/-- The items of an array, `depth` levels deep. -/
def prettyItems (depth : Nat) : List Json → List String
  | [] => []
  | j :: rest => j.prettyAt depth :: prettyItems depth rest

/-- The members of an object, `depth` levels deep. -/
def prettyMembers (depth : Nat) : List (String × Json) → List String
  | [] => []
  | (key, j) :: rest => (quote key ++ ": " ++ j.prettyAt depth) :: prettyMembers depth rest

end

/-- A value indented by two blanks a level. -/
def pretty (j : Json) : String :=
  j.prettyAt 0

end Json

end CallGraph
