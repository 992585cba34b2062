import CallGraph.Builder

/-!
**Sessions.**

A client sends commands, one JSON value a line, and gets one line back for each. Blank lines are
passed over. One command ends the session.

* `Command` — what a line asks for; `Command.ofText`;
* `Reply` — what is said to it; `Reply.text` is one line, in which a `Voice` words what libraries
  report;
* `respond` — the reply to a line;
* `served` — the lines up to the one that ends the session.
-/

namespace CallGraph

/-- What a line asks for. -/
structure Command where
  name : String := ""
  params : Option Json := none

namespace Command

/-- How deep parameters may be nested. A line has one more level, its own. -/
def deepest : Nat := 126

open Json in
/-- The fields of a command, in order. -/
def fields : List (RecordField Command) :=
  [.must "command" text fun c x => { c with name := x },
    .named "params" (optional (value deepest)) fun c x => { c with params := x }]

/-- Reads a command from a text. -/
def ofText (text : String) : Except Json.Fault Command :=
  Json.readText (Json.record fields {}) text

end Command

/-- How a reply words what libraries report. -/
structure Voice where
  /-- The reports of the file system and of the readers of files. -/
  cause : Wording := Cause.spoken
  /-- What the JSON reader says of a line that it cannot read. -/
  json : String := "<json>"

/-- Why a line is not carried out. -/
inductive Refusal where
  | badLine
  | unknownCommand (name : String)
  | noParams
  | badParams
  deriving DecidableEq, Repr

namespace Refusal

/-- The wording of a refusal. -/
def message (v : Voice) : Refusal → String
  | badLine => "Invalid JSON format: " ++ v.json
  | unknownCommand name => "Unknown command: " ++ name
  | noParams => "Missing params for CALLGRAPH"
  | badParams => "Invalid CALLGRAPH params: " ++ v.json

end Refusal

/-- What is said to a line. -/
inductive Reply where
  | pong
  | stopping
  | answer (a : Answer)
  | failed (e : QueryError)
  | refused (why : Refusal)
  deriving DecidableEq, Repr

namespace Reply

/-- Whether a reply ends the session. -/
def ends : Reply → Bool
  | stopping => true
  | _ => false

/-- The reply to something that worked. -/
def success (data : Json) : Json :=
  .object [("data", data), ("status", .string "success")]

/-- The answer to a query, with the milliseconds it took if they are known. -/
def answerData (a : Answer) (milliseconds : Option Nat) : Json :=
  .object [("body", .string a.body), ("format", .string a.format.name),
    ("stats", .object <|
      optionalMember "duration_ms" (milliseconds.map .nat) ++
        [("edge_count", .nat a.edgeCount), ("node_count", .nat a.nodeCount)])]

/-- A reply as a value. -/
def toJson (r : Reply) (milliseconds : Option Nat) (v : Voice := {}) : Json :=
  match r with
  | pong => success (.string "PONG")
  | stopping => success (.string "Shutting down...")
  | answer a => success (answerData a milliseconds)
  | failed e =>
    .object [("kind", .string e.kind), ("message", .string (e.message v.cause)),
      ("status", .string "error")]
  | refused why => .object [("message", .string (why.message v)), ("status", .string "error")]

/-- A reply as a line. -/
def text (r : Reply) (milliseconds : Option Nat) (v : Voice := {}) : String :=
  (r.toJson milliseconds v).compact

end Reply

namespace Session

/-- The reply to the parameters of a query. A server that is `stopping` gives its queries up. -/
def answerQuery (fs : Files) (params : Json) (stopping : Bool := false) : Reply :=
  match Json.readJson Request.decode params with
  | .error _ => .refused .badParams
  | .ok request =>
    match (Query.run fs.builder request { cancelled := stopping }).run.value with
    | .ok a => .answer a
    | .error e => .failed e

/-- The reply to a command. -/
def carryOut (fs : Files) (c : Command) (stopping : Bool := false) : Reply :=
  if c.name = "PING" then .pong
  else if c.name = "SHUTDOWN" then .stopping
  else if c.name = "CALLGRAPH" then
    match c.params with
    | none => .refused .noParams
    | some params => answerQuery fs params stopping
  else .refused (.unknownCommand c.name)

/-- The reply to a line; none to a blank one. -/
def respond (fs : Files) (line : String) (stopping : Bool := false) : Option Reply :=
  let line := Text.trim line
  if line = "" then none
  else
    match Command.ofText line with
    | .error _ => some (.refused .badLine)
    | .ok c => some (carryOut fs c stopping)

/-- Whether a line is the command that stops the server. -/
def isShutdown (line : String) : Bool :=
  match Command.ofText (Text.trim line) with
  | .error _ => false
  | .ok c => c.name = "SHUTDOWN"

/-- The lines that a server reads: those up to the first that stops it, and that one. -/
def served (lines : List String) : List String :=
  lines.takeWhile (fun line => !isShutdown line) ++ (lines.find? isShutdown).toList

/-- The query that a line asks for, if it does. -/
def request? (line : String) : Option Request := do
  let c ← (Command.ofText (Text.trim line)).toOption
  guard (c.name = "CALLGRAPH")
  (Json.readJson Request.decode (← c.params)).toOption

end Session

end CallGraph
