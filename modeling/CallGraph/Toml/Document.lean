import CallGraph.Toml.Scalar

/-!
**TOML documents.**

* `value` — any value; arrays and braces may lie `deepest` levels inside one another;
* `Line`, `line` — what the lines of a document say;
* `ofLines` — the table that lines fill, `ofText?` — that of a text.
-/

namespace CallGraph.Toml

namespace Reader

/-! ### Keys and values -/

/-- Characters of a key without quotes. -/
def isKeyChar (c : Char) : Bool :=
  c.isAlphanum || c == '-' || c == '_'

/-- Reads one name of a key. -/
def keyName : Reader String :=
  quotedText <|> do
    let cs ← run isKeyChar
    guard !cs.isEmpty
    return String.ofList cs

/-- The most that keys can have of names, and values of levels, and a little more. -/
def tooDeep : Nat := 80

/-- Reads a key: names with dots between. -/
def key : Reader (List String) := do
  let names ← separated "." (spaces *> keyName <* spaces)
  guard (names.length < tooDeep)
  return names

/-- Passes over blanks, line breaks and comments. -/
def gap : Reader Unit :=
  discard (many (discard (oneOf isSpace) <|> newLine <|> (comment *> newLine)))

/-- Reads an array of the values that `p` reads. -/
def array (p : Reader Toml) : Reader Toml := do
  exactly "["
  let items ← maybe (separated "," (gap *> p <* gap))
  if items.isSome then discard (maybe (exactly ","))
  gap
  exactly "]"
  return Toml.array (items.getD [])

/-- Reads a key and its value. -/
def pair (p : Reader Toml) : Reader (List String × Toml) := do
  let path ← key
  exactly "="
  spaces
  let v ← p
  spaces
  return (path, v)

/-- Reads a table between braces, of the values that `p` reads. -/
def inlineTable (p : Reader Toml) : Reader Toml := do
  exactly "\x7b"
  let pairs ← maybe (separated "," (pair p))
  spaces
  exactly "\x7d"
  ofPairs (pairs.getD [])

/-- Reads a value in which arrays and braces lie at most so many levels inside one another. -/
def value : Nat → Reader Toml
  | 0 => scalar
  | depth + 1 => scalar <|> array (value depth) <|> inlineTable (value depth)

end Reader

/-! ### Lines -/

/-- What a line says. -/
inductive Line where
  | nothing
  | pair (path : List String) (v : Toml)
  | table (path : List String)
  | entry (path : List String)

namespace Reader

/-- Reads what may follow on a line, and its end. -/
def lineEnd : Reader Unit := do
  spaces
  discard (maybe comment)
  newLine <|> do guard (← get).isEmpty

/-- Reads a header between the given brackets. -/
def header (opening closing : String) : Reader (List String) := do
  exactly opening
  let path ← key
  exactly closing
  return path

/-- Reads a line, which is not the empty end of a text. -/
def line : Reader Line := do
  spaces
  guard !(← get).isEmpty
  let said ← (.entry <$> header "[[" "]]") <|> (.table <$> header "[" "]") <|>
    ((fun (path, v) => .pair path v) <$> pair (value (tooDeep - 1))) <|> pure .nothing
  lineEnd
  return said

/-- Reads a document. A mark of the byte order may stand in front of it. -/
def document : Reader (List Line) := do
  discard (maybe (exactly "\ufeff"))
  let lines ← many line
  spaces
  guard (← get).isEmpty
  return lines

end Reader

/-- A document as far as its lines have been taken in. -/
structure Draft where
  members : Members := []
  /-- The header that keys stand under. -/
  under : List String := []

/-- Takes in a line. -/
def Draft.take (d : Draft) : Line → Option Draft
  | .nothing => some d
  | .pair path v => do
    let members ← descend .implied (insert path v) d.under .header d.members
    return { d with members := members }
  | .table path => do return ⟨← openTable path d.members, path⟩
  | .entry path => do return ⟨← openEntry path d.members, path⟩

/-- The table that some lines fill. -/
def ofLines (lines : List Line) : Option Members :=
  (lines.foldlM Draft.take {}).map (·.members)

/-- The table that a text describes. -/
def ofText? (text : String) : Option Toml := do
  let (lines, _) ← Reader.document text.toList
  return .table .header (← ofLines lines)

end CallGraph.Toml
