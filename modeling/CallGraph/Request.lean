import CallGraph.Failure
import CallGraph.Filter

/-!
**Requests and plans.**

A request is what a user writes: words and lists, many of them missing. A plan is what it means. The
fields of a request are checked in a fixed order, and the first that makes no sense is the error.

* `Request`, with its defaults; `Request.decode` reads one;
* `cleanList`, `cleanOption` — lists may be joined by commas, and blanks do not count;
* `Plan`, `Request.validate` — the plan of a request.
-/

namespace CallGraph

/-- A query as it is asked. -/
structure Request where
  moduleArgs : List String := []
  /-- The directory that module arguments are read from. -/
  dir : Option String := none
  algo : String := Algorithm.rta.name
  symbol : Option String := none
  direction : String := Direction.callees.name
  group : List String := ["pkg"]
  excludeStd : Bool := true
  excludeUnexported : Bool := true
  limitPrefix : List String := []
  limitKeyword : List String := []
  ignore : List String := []
  focus : Option String := none
  /-- The bound on hops: 0 is none, a missing one is the default of the kind of query. -/
  maxDepth : Option Nat := none
  tests : Bool := false
  tags : List String := []
  debug : Bool := false
  format : String := Format.mermaid.name
  endpointMatch : String := EndpointMatch.both.name
  timeoutMs : Option Nat := none
  deriving DecidableEq, Repr

/-- What a graph builder has to know. -/
structure BuildRequest where
  moduleArgs : List String
  dir : Option String
  algorithm : Algorithm
  includeTests : Bool
  /-- The features that are switched on. -/
  tags : List String
  deriving DecidableEq, Repr

/-- What a query means. -/
structure Plan where
  build : BuildRequest
  symbol : Option String
  direction : Direction
  group : Grouping
  filter : FilterConfig
  /-- The bound on hops; 0 is none. -/
  maxDepth : Nat
  format : Format
  debug : Bool
  timeoutMs : Option Nat
  deriving DecidableEq, Repr

/-- The bound on the hops from the entry points. -/
def defaultGraphDepth : Nat := 4

/-- The bound on the hops from a symbol. -/
def defaultSymbolDepth : Nat := 7

/-- The entries of a list, also where commas join several, without blanks around them and without
empty ones. -/
def cleanList (values : List String) : List String :=
  ((values.flatMap (Text.split (· == ','))).map Text.trim).filter (· ≠ "")

/-- A text without blanks around it, if anything is left of it. -/
def cleanOption (value : Option String) : Option String :=
  (value.map Text.trim).filter (· ≠ "")

/-- The value that a word was read as, or the error that it is none. -/
def orUnknown {α : Type} (option : OptionKind) (text : String) (read : Option α) :
    Except QueryError α :=
  match read with
  | some a => .ok a
  | none => .error (.unknownValue option text)

/-- The grouping that keys ask for, or the error that one of them is none. -/
def readGroup (keys : List String) : Except QueryError Grouping :=
  match Grouping.ofKeys keys with
  | .ok g => .ok g
  | .error key => .error (.unknownGroup key)

namespace Request

/-- The filter that a request asks for. -/
def filterConfig (r : Request) (endpointMatch : EndpointMatch) : FilterConfig where
  excludeStd := r.excludeStd
  excludeUnexported := r.excludeUnexported
  includePrefixes := cleanList r.limitPrefix
  limitKeywords := cleanList r.limitKeyword
  ignore := cleanList r.ignore
  focus := cleanOption r.focus
  endpointMatch := endpointMatch

/-- The bound on hops that a request asks for. -/
def depthBound (r : Request) : Nat :=
  r.maxDepth.getD (if (cleanOption r.symbol).isSome then defaultSymbolDepth else defaultGraphDepth)

/-- What a request means. -/
def validate (r : Request) : Except QueryError Plan := do
  if cleanList r.moduleArgs = [] then throw .noModuleArgument
  let algorithm ← orUnknown .algorithm r.algo (Algorithm.parse? r.algo)
  let direction ← orUnknown .direction r.direction (Direction.parse? r.direction)
  let format ← orUnknown .format r.format (Format.parse? r.format)
  let endpointMatch ←
    orUnknown .endpointMatch r.endpointMatch (EndpointMatch.parse? r.endpointMatch)
  let group ← readGroup (cleanList r.group)
  return {
    build := {
      moduleArgs := cleanList r.moduleArgs
      dir := r.dir
      algorithm := algorithm
      includeTests := r.tests
      tags := cleanList r.tags }
    symbol := cleanOption r.symbol
    direction := direction
    group := group
    filter := r.filterConfig endpointMatch
    maxDepth := r.depthBound
    format := format
    debug := r.debug
    timeoutMs := r.timeoutMs }

/-! ### Reading a request -/

open Json in
/-- The fields of a request, in order. -/
def fields : List (RecordField Request) :=
  [.maybe "module_args" (list text) fun r x => { r with moduleArgs := x },
    .maybe "dir" (optional text) fun r x => { r with dir := x },
    .maybe "algo" text fun r x => { r with algo := x },
    .maybe "symbol" (optional text) fun r x => { r with symbol := x },
    .maybe "direction" text fun r x => { r with direction := x },
    .maybe "group" (list text) fun r x => { r with group := x },
    .maybe "exclude_std" boolean fun r x => { r with excludeStd := x },
    .maybe "exclude_unexported" boolean fun r x => { r with excludeUnexported := x },
    .maybe "limit_prefix" (list text) fun r x => { r with limitPrefix := x },
    .maybe "limit_keyword" (list text) fun r x => { r with limitKeyword := x },
    .maybe "ignore" (list text) fun r x => { r with ignore := x },
    .maybe "focus" (optional text) fun r x => { r with focus := x },
    .maybe "max_depth" (optional (natural (Word.largest 32))) fun r x => { r with maxDepth := x },
    .maybe "tests" boolean fun r x => { r with tests := x },
    .maybe "tags" (list text) fun r x => { r with tags := x },
    .maybe "debug" boolean fun r x => { r with debug := x },
    .maybe "format" text fun r x => { r with format := x },
    .maybe "endpoint_match" text fun r x => { r with endpointMatch := x },
    .maybe "timeout_ms" (optional (natural (Word.largest 64))) fun r x => { r with timeoutMs := x }]

/-- Reads a request. -/
def decode : Json.Decoder Request :=
  Json.record fields {}

/-- Reads a request from a text. -/
def ofText (text : String) : Except Json.Fault Request :=
  Json.readText decode text

end Request

end CallGraph
