import CallGraph.Json.Token

/-!
**What a JSON text holds, as far as it can be read.**

A text may break off or go wrong. What was read up to there is kept, so that a reader who looks for
particular fields meets the first problem first, whether it is the text or what it says.

* `Fragment` — a value of which the last part may be missing;
* `build` — tokens put together, by a work list instead of recursion, so nesting has no limit;
* `Fragment.ofText` — the fragment of a text, and whether the text ends with it;
* `Fragment.ofJson` — a whole value as a fragment.
-/

namespace CallGraph.Json

/-- A value of which the last part may be missing. -/
inductive Fragment where
  | null
  | bool (b : Bool)
  | number (n : JsonNumber)
  | string (s : String)
  /-- A string in which an escape stands for half of a character. -/
  | halfString
  /-- Items, and whether the array is closed after them. -/
  | array (items : List Fragment) (closed : Bool)
  /-- Members, and whether the object is closed after them. A key that is a half string is none. -/
  | object (members : List (Option String × Fragment)) (closed : Bool)
  /-- The text goes wrong where a value should begin. -/
  | missing

/-- What surrounds the place that is being read. -/
inductive Frame where
  /-- Inside an array, with the items so far, the last one first. -/
  | array (items : List Fragment)
  /-- Inside an object, with the members so far, the last one first. -/
  | object (members : List (Option String × Fragment))
  /-- Inside an object, after a key. -/
  | member (members : List (Option String × Fragment)) (key : Option String)

/-- What may come next. -/
inductive Expected where
  | value
  | itemOrEnd
  | keyOrEnd
  | key
  | colon
  | commaOrEnd
  deriving DecidableEq

/-- What has been read when the text goes wrong: everything open stays open. -/
def giveUp (last : Option Fragment) : List Frame → Fragment
  | [] => last.getD .missing
  | .array items :: rest => giveUp (some (.array (items.reverse ++ last.toList) false)) rest
  | .object members :: rest => giveUp (some (.object members.reverse false)) rest
  | .member members key :: rest =>
    giveUp (some (.object (members.reverse ++ [(key, last.getD .missing)]) false)) rest

/-- The outcome of one token. -/
inductive Step where
  | goOn (stack : List Frame) (expected : Expected)
  | done (f : Fragment)
  | wrong

/-- Puts a finished value where it belongs. -/
def put (f : Fragment) : List Frame → Step
  | [] => .done f
  | .array items :: rest => .goOn (.array (f :: items) :: rest) .commaOrEnd
  | .member members key :: rest => .goOn (.object ((key, f) :: members) :: rest) .commaOrEnd
  | .object _ :: _ => .wrong

/-- Takes the first token of a value. -/
def startValue (stack : List Frame) : Token → Step
  | .null => put .null stack
  | .bool b => put (.bool b) stack
  | .number n => put (.number n) stack
  | .string s => put (.string s) stack
  | .halfString => put .halfString stack
  | .openArray => .goOn (.array [] :: stack) .itemOrEnd
  | .openObject => .goOn (.object [] :: stack) .keyOrEnd
  | _ => .wrong

/-- Takes a key. -/
def takeKey (stack : List Frame) (key : Option String) : Step :=
  match stack with
  | .object members :: rest => .goOn (.member members key :: rest) .colon
  | _ => .wrong

/-- Closes an array. -/
def closeArray (stack : List Frame) : Step :=
  match stack with
  | .array items :: rest => put (.array items.reverse true) rest
  | _ => .wrong

/-- Closes an object. -/
def closeObject (stack : List Frame) : Step :=
  match stack with
  | .object members :: rest => put (.object members.reverse true) rest
  | _ => .wrong

/-- Takes one token. -/
def advance (stack : List Frame) : Expected → Token → Step
  | .value, t => startValue stack t
  | .itemOrEnd, .closeArray => closeArray stack
  | .itemOrEnd, t => startValue stack t
  | .keyOrEnd, .closeObject => closeObject stack
  | .keyOrEnd, .string s => takeKey stack (some s)
  | .keyOrEnd, .halfString => takeKey stack none
  | .key, .string s => takeKey stack (some s)
  | .key, .halfString => takeKey stack none
  | .colon, .colon => .goOn stack .value
  | .commaOrEnd, .comma =>
    match stack with
    | .array _ :: _ => .goOn stack .value
    | .object _ :: _ => .goOn stack .key
    | _ => .wrong
  | .commaOrEnd, .closeArray => closeArray stack
  | .commaOrEnd, .closeObject => closeObject stack
  | _, _ => .wrong

/-- The value that tokens begin with, and the tokens after it. -/
def build (stack : List Frame) (expected : Expected) : List Token → Fragment × List Token
  | [] => (giveUp none stack, [])
  | t :: rest =>
    match advance stack expected t with
    | .goOn stack expected => build stack expected rest
    | .done f => (f, rest)
    | .wrong => (giveUp none stack, t :: rest)

namespace Fragment

/-- The fragment of a text, and whether the text ends with it. -/
def ofText (text : String) : Fragment × Bool :=
  let (f, rest) := build [] .value (tokens text.toList)
  (f, rest.isEmpty)

mutual

/-- A whole value as a fragment. -/
def ofJson : Json → Fragment
  | .null => .null
  | .bool b => .bool b
  | .number n => .number n
  | .string s => .string s
  | .array items => .array (ofItems items) true
  | .object members => .object (ofMembers members) true

/-- Whole values as fragments. -/
def ofItems : List Json → List Fragment
  | [] => []
  | j :: rest => ofJson j :: ofItems rest

/-- Whole members as fragments. -/
def ofMembers : List (String × Json) → List (Option String × Fragment)
  | [] => []
  | (key, j) :: rest => (some key, ofJson j) :: ofMembers rest

end

mutual

/-- Whether nothing is missing from a fragment. -/
def isWhole : Fragment → Bool
  | .missing => false
  | .array items closed => closed && allWhole items
  | .object members closed => closed && allMembersWhole members
  | _ => true

/-- Whether nothing is missing from any of the items. -/
def allWhole : List Fragment → Bool
  | [] => true
  | f :: rest => f.isWhole && allWhole rest

/-- Whether nothing is missing from any of the members. -/
def allMembersWhole : List (Option String × Fragment) → Bool
  | [] => true
  | (_, f) :: rest => f.isWhole && allMembersWhole rest

end

end Fragment

end CallGraph.Json
