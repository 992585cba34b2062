import CallGraph.Arguments
import CallGraph.Session

/-!
**The command line.**

`graph` answers one query: settings come from a file, if one is named, and the arguments go on top
of them. `serve` answers queries from clients.

* `GraphOptions` — the arguments of `graph`; `GraphOptions.request` is the query they ask for;
* `Invocation.ofArguments` — what is to be done;
* `CommandLine.graph` — what `graph` prints and writes.
-/

namespace CallGraph

open Arguments (Setting Stop)

/-- The arguments of `graph`. -/
structure GraphOptions where
  moduleArgs : List String := []
  dir : Option String := none
  algo : Option String := none
  symbol : Option String := none
  direction : Option String := none
  group : Option (List String) := none
  keepStd : Bool := false
  keepUnexported : Bool := false
  limitPrefix : List String := []
  limitKeyword : List String := []
  ignore : List String := []
  focus : Option String := none
  maxDepth : Option Nat := none
  tests : Bool := false
  tags : List String := []
  format : Option String := none
  endpointMatch : Option String := none
  timeoutMs : Option Nat := none
  /-- The file that the diagram is written to. -/
  output : Option String := none
  /-- The file with settings. -/
  config : Option String := none
  debug : Bool := false
  deriving DecidableEq, Repr

namespace GraphOptions

/-- A path, which has at least one character. -/
def path? (text : String) : Option String :=
  if text = "" then none else some text

/-- The settings of `graph`. -/
def settings : List (Setting GraphOptions) :=
  [⟨"dir", some 'd', .single fun o v => (path? v).map fun v => { o with dir := v }⟩,
    ⟨"algo", none, .single fun o v => some { o with algo := v }⟩,
    ⟨"symbol", some 's', .single fun o v => some { o with symbol := v }⟩,
    ⟨"direction", none, .single fun o v => some { o with direction := v }⟩,
    ⟨"group", none, .list fun o v =>
      { o with group := some (o.group.getD [] ++ Arguments.joined v) }⟩,
    ⟨"keep-std", none, .flag fun o => { o with keepStd := true }⟩,
    ⟨"keep-unexported", none, .flag fun o => { o with keepUnexported := true }⟩,
    ⟨"limit-prefix", none, .list fun o v =>
      { o with limitPrefix := o.limitPrefix ++ Arguments.joined v }⟩,
    ⟨"limit-keyword", none, .list fun o v =>
      { o with limitKeyword := o.limitKeyword ++ Arguments.joined v }⟩,
    ⟨"ignore", none, .list fun o v => { o with ignore := o.ignore ++ Arguments.joined v }⟩,
    ⟨"focus", none, .single fun o v => some { o with focus := v }⟩,
    ⟨"max-depth", none, .single fun o v =>
      (Arguments.number? true (Word.largest 32) v).map fun n => { o with maxDepth := n }⟩,
    ⟨"tests", none, .flag fun o => { o with tests := true }⟩,
    ⟨"tags", none, .list fun o v => { o with tags := o.tags ++ Arguments.joined v }⟩,
    ⟨"format", some 'f', .single fun o v => some { o with format := v }⟩,
    ⟨"endpoint-match", none, .single fun o v => some { o with endpointMatch := v }⟩,
    ⟨"timeout-ms", none, .single fun o v =>
      (Arguments.number? false (Word.largest 64) v).map fun n => { o with timeoutMs := n }⟩,
    ⟨"output", some 'o', .single fun o v => (path? v).map fun v => { o with output := v }⟩,
    ⟨"config", some 'c', .single fun o v => (path? v).map fun v => { o with config := v }⟩,
    ⟨"debug", none, .flag fun o => { o with debug := true }⟩,
    Setting.help]

/-- A list, unless it is empty, in place of another. -/
def orElseList (given other : List String) : List String :=
  if given.isEmpty then other else given

/-- The query that options make of another one: what they give takes the place of what it says. -/
def request (o : GraphOptions) (r : Request) : Request where
  moduleArgs := orElseList o.moduleArgs r.moduleArgs
  dir := o.dir <|> r.dir
  algo := o.algo.getD r.algo
  symbol := o.symbol <|> r.symbol
  direction := o.direction.getD r.direction
  group := o.group.getD r.group
  excludeStd := !o.keepStd && r.excludeStd
  excludeUnexported := !o.keepUnexported && r.excludeUnexported
  limitPrefix := orElseList o.limitPrefix r.limitPrefix
  limitKeyword := orElseList o.limitKeyword r.limitKeyword
  ignore := orElseList o.ignore r.ignore
  focus := o.focus <|> r.focus
  maxDepth := o.maxDepth <|> r.maxDepth
  tests := r.tests || o.tests
  tags := orElseList o.tags r.tags
  debug := r.debug || o.debug
  format := o.format.getD r.format
  endpointMatch := o.endpointMatch.getD r.endpointMatch
  timeoutMs := o.timeoutMs <|> r.timeoutMs

/-- Reads the arguments of `graph`. -/
def ofArguments (debug : Bool) (arguments : List String) : Except Stop GraphOptions := do
  let r ← Arguments.read settings {} arguments
  return { r.options with moduleArgs := r.operands, debug := debug || r.options.debug }

end GraphOptions

/-- What is to be done. -/
inductive Invocation where
  | graph (options : GraphOptions)
  | serve (port : Nat)
  deriving DecidableEq, Repr

namespace Invocation

/-- The port that is served unless another one is given. -/
def defaultPort : Nat := 7878

/-- The settings of `serve`: its port, and whether to say more. -/
def serveSettings : List (Setting (Nat × Bool)) :=
  [⟨"port", some 'p', .single fun o v =>
      (Arguments.number? true (Word.largest 16) v).map fun n => (n, o.2)⟩,
    ⟨"debug", none, .flag fun o => (o.1, true)⟩, Setting.help]

/-- The settings in front of a command. -/
def commonSettings : List (Setting Bool) :=
  [⟨"debug", none, .flag fun _ => true⟩, Setting.help, ⟨"version", some 'V', .stop .version⟩]

/-- The commands that help can be asked for by name. -/
def commands : List String :=
  ["graph", "serve", "help"]

/-- What is to be done, by the name of a command and what follows it. -/
def ofCommand (debug : Bool) (name : String) (arguments : List String) :
    Except Stop Invocation := do
  match name with
  | "graph" => return .graph (← GraphOptions.ofArguments debug arguments)
  | "serve" =>
    let r ← Arguments.read serveSettings (defaultPort, false) arguments
    if r.operands.isEmpty then return .serve r.options.1 else throw .usage
  | "help" =>
    if arguments.isEmpty then throw .help
    else if arguments.length = 1 && arguments.all commands.contains then throw .help
    else throw .usage
  | _ => throw .usage

/-- Reads arguments up to the name of a command. -/
def ofReading (r : Arguments.Reading Bool) : List String → Except Stop Invocation
  | [] => .error .usage
  | argument :: rest => do
    let next ← r.take commonSettings argument
    match next.operands with
    | [] => ofReading next rest
    | name :: _ => if next.onlyOperands then throw .usage else ofCommand next.options name rest

/-- What the arguments ask for. -/
def ofArguments (arguments : List String) : Except Stop Invocation :=
  ofReading { options := false } arguments

end Invocation

/-! ### Running -/

/-- What a run has to show. -/
structure Outcome where
  exit : Nat
  output : String := ""
  /-- What is said beside the output, line by line. -/
  messages : List String := []
  /-- The files afterwards. -/
  files : Files
  /-- What the query has reported. -/
  notes : List Note := []

namespace Outcome

/-- The outcome of a run that took so long, which is said after the sizes. -/
def timed (o : Outcome) (milliseconds : Nat) : Outcome :=
  match o.messages.getLast? with
  | some last =>
    if o.exit = 0 then
      { o with
        messages := o.messages.dropLast ++ [last ++ ", took: " ++ milliseconds.repr ++ " ms"] }
    else o
  | none => o

end Outcome

namespace CommandLine

/-- The name and the version of the program. -/
def version : String :=
  "callflow 0.1.0\n"

/-- A setting as help shows it. -/
def showSetting {σ : Type} (s : Setting σ) : String :=
  let letter := (s.letter.map fun c => "-" ++ String.ofList [c] ++ ", ").getD "    "
  let value := if s.takesValue then " <" ++ s.name.toUpper ++ ">" else ""
  "  " ++ letter ++ "--" ++ s.name ++ value ++ "\n"

/-- How the program is used. -/
def usage : String :=
  "Usage: callflow [--debug] graph [OPTIONS] [MODULE_ARGS]...\n" ++
    "       callflow [--debug] serve [--port <PORT>]\n\n" ++
    "Options of graph:\n" ++ String.join (GraphOptions.settings.map showSetting) ++
    "\nOptions of serve:\n" ++ String.join (Invocation.serveSettings.map showSetting)

/-- Why a run of `graph` fails. -/
inductive Failure where
  | unreadableConfig (path : String) (fault : IoFault)
  | badConfig (path : String)
  | query (e : QueryError)
  | unwritable (path : String) (fault : IoFault)
  deriving DecidableEq, Repr

/-- What is said of a failure. -/
def Failure.message : Failure → String
  | unreadableConfig path fault =>
    "error: " ++ joinChain ["Failed to read config " ++ path, Cause.spoken (.io fault)]
  | badConfig path => "error: " ++ joinChain ["Invalid config " ++ path, Cause.spoken .toml]
  | query e => "error[" ++ e.kind ++ "]: " ++ e.message Cause.spoken
  | unwritable path fault =>
    "error: " ++ joinChain ["Failed to write " ++ path, Cause.spoken (.io fault)]

/-- The query that the settings in a file ask for. -/
def readConfig (fs : Files) (path : String) : Except Failure Request := do
  match fs.readText path with
  | .error fault => throw (.unreadableConfig path fault)
  | .ok text =>
    match (Toml.ofText? text).map fun t => Json.readJson Request.decode t.toJson with
    | some (.ok r) => return r
    | _ => throw (.badConfig path)

/-- The query that options ask for, given the files. -/
def requestOf (fs : Files) (o : GraphOptions) : Except Failure Request := do
  match o.config with
  | some path => return o.request (← readConfig fs path)
  | none => return o.request {}

/-- What is said of the size of an answer. -/
def sizes (a : Answer) : String :=
  "nodes: " ++ a.nodeCount.repr ++ ", edges: " ++ a.edgeCount.repr

/-- Prints an answer, or writes it to a file. -/
def deliver (fs : Files) (o : GraphOptions) (a : Answer) : Except Failure Outcome :=
  match o.output with
  | none => .ok { exit := 0, output := a.body, messages := [sizes a], files := fs }
  | some path =>
    match fs.write path a.body with
    | .error fault => .error (.unwritable path fault)
    | .ok written =>
      .ok {
        exit := 0
        messages :=
          ["Output written to " ++ path ++ " (format: " ++ a.format.name ++ ")", sizes a]
        files := written }

/-- Answers the query of some options. -/
def answer (fs : Files) (o : GraphOptions) : ExceptT Failure Logged Outcome := do
  let request ← ExceptT.mk (pure (requestOf fs o))
  let a ← ExceptT.adapt Failure.query (Query.run fs.builder request .none)
  ExceptT.mk (pure (deliver fs o a))

/-- What `graph` shows. -/
def graph (fs : Files) (o : GraphOptions) : Outcome :=
  let result := (answer fs o).run
  match result.value with
  | .ok outcome => { outcome with notes := result.notes }
  | .error failure => ⟨1, "", [failure.message], fs, result.notes⟩

/-- What a run shows that does nothing. -/
def stopped (fs : Files) : Stop → Outcome
  | .usage => { exit := 2, messages := [usage], files := fs }
  | .help => { exit := 0, output := usage, files := fs }
  | .version => { exit := 0, output := version, files := fs }

end CommandLine

end CallGraph
