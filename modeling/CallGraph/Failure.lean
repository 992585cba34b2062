import CallGraph.Interrupt
import CallGraph.Json.Decode
import CallGraph.Text.Quoted

/-!
**What can go wrong.**

Failures are causes. Their wording is made in one place, outermost context first, and may end in the
report of the file system, of a reader or of the build tool, which is worded by whoever shows it.

* `Cause` — what they report, worded by a `Wording`;
* `LoadFailure`, `BuildFailure` — why there are no sources, or no graph;
* `QueryError` — why a query has no answer, with its `kind` and `message`.
-/

namespace CallGraph

/-- What the file system can report. -/
inductive IoFault where
  | notFound
  | notADirectory
  | isADirectory
  /-- The file is no UTF-8 text. -/
  | invalidData
  /-- The path holds a character that no path can hold. -/
  | invalidInput
  /-- A name or the whole path is too long. -/
  | invalidFilename
  deriving DecidableEq, Repr

/-- What the file system, a reader or the build tool reports. -/
inductive Cause where
  | io (fault : IoFault)
  | json (fault : Json.Fault)
  | toml
  /-- The build tool tells nothing of a workspace. -/
  | workspace
  deriving DecidableEq, Repr

/-- How reports are worded. -/
abbrev Wording := Cause → String

namespace Cause

/-- The name of a file system report. -/
def ioName : IoFault → String
  | .notFound => "NotFound"
  | .notADirectory => "NotADirectory"
  | .isADirectory => "IsADirectory"
  | .invalidData => "InvalidData"
  | .invalidInput => "InvalidInput"
  | .invalidFilename => "InvalidFilename"

/-- The short wording: the kind of report between angle brackets. -/
def tag : Wording
  | io fault => "<io " ++ ioName fault ++ ">"
  | json fault => "<json " ++ fault.name ++ ">"
  | toml => "<toml>"
  | workspace => "<cargo>"

/-- What the operating system says of a report. -/
def ioText : IoFault → String
  | .notFound => "No such file or directory (os error 2)"
  | .notADirectory => "Not a directory (os error 20)"
  | .isADirectory => "Is a directory (os error 21)"
  | .invalidData => "stream did not contain valid UTF-8"
  | .invalidInput => "file name contained an unexpected NUL byte"
  | .invalidFilename => "File name too long (os error 36)"

/-- The wording for people: in the words of the operating system where there are any. -/
def spoken : Wording
  | io fault => ioText fault
  | json fault => "<json " ++ fault.name ++ ">"
  | toml => "TOML parse error"
  | workspace => "cargo metadata exited with an error"

end Cause

/-- Why the sources of a program could not be loaded. -/
inductive LoadFailure where
  | argumentNotFound (argument path : String)
  | unreadableFile (path : String) (fault : IoFault)
  | unreadableFolder (path : String) (fault : IoFault)
  | unreadableManifest (path : String) (fault : IoFault)
  | badManifest (path : String)
  /-- The build tool does not take the manifest for that of a workspace. -/
  | noWorkspace
  deriving DecidableEq, Repr

namespace LoadFailure

/-- The contexts of a failure, outermost first. -/
def chain (w : Wording) : LoadFailure → List String
  | argumentNotFound argument path =>
    ["module argument " ++ argument ++ " not found (resolved to " ++ path ++ ")"]
  | unreadableFile path fault => ["Failed to read file " ++ path, w (.io fault)]
  | unreadableFolder path fault => ["Failed to read directory " ++ path, w (.io fault)]
  | unreadableManifest path fault => ["Failed to read " ++ path, w (.io fault)]
  | badManifest path => ["Invalid toml in " ++ path, w .toml]
  | noWorkspace => ["Failed to execute cargo metadata", w .workspace]

end LoadFailure

/-- Why a call graph could not be built. -/
inductive BuildFailure where
  | loading (failure : LoadFailure)
  | noSources (arguments : List String)
  /-- There is nothing to start the analysis from. -/
  | noEntryPoint
  | unreadableDocument (path : String) (fault : IoFault)
  | badDocument (path : String) (fault : Json.Fault)
  deriving DecidableEq, Repr

namespace BuildFailure

/-- The contexts of a failure, outermost first. -/
def chain (w : Wording) : BuildFailure → List String
  | loading failure => "loading sources" :: failure.chain w
  | noSources arguments => ["no Rust sources found in " ++ ", ".intercalate arguments]
  | noEntryPoint => ["rta analysis", "no main function"]
  | unreadableDocument path fault => ["Failed to read graph document " ++ path, w (.io fault)]
  | badDocument path fault => ["Invalid graph document " ++ path, w (.json fault)]

end BuildFailure

/-- The contexts of a failure on one line. -/
def joinChain (chain : List String) : String :=
  ": ".intercalate chain

/-- The options of which a query gives one word. -/
inductive OptionKind where
  | algorithm
  | direction
  | format
  | endpointMatch
  deriving DecidableEq, Repr

namespace OptionKind

/-- The words for an option. -/
def text : OptionKind → String
  | algorithm => "algorithm"
  | direction => "direction"
  | format => "format"
  | endpointMatch => "endpoint match"

end OptionKind

/-- Why a query has no answer. -/
inductive QueryError where
  | noModuleArgument
  | unknownValue (option : OptionKind) (value : String)
  | unknownGroup (key : String)
  | symbolNotFound (reference : String)
  | construction (failure : BuildFailure)
  | interrupted (cause : Interruption)
  /-- A walk was asked to start at no node. -/
  | noSuchStart
  deriving DecidableEq, Repr

namespace QueryError

/-- The code of an error, for machines. -/
def kind : QueryError → String
  | noModuleArgument => "missing_required_input"
  | unknownValue _ _ | unknownGroup _ => "invalid_configuration"
  | symbolNotFound _ => "symbol_not_found"
  | construction _ => "collaborator_failure"
  | interrupted _ => "interrupted"
  | noSuchStart => "no_such_start"

/-- What is said of a grouping key that is none. -/
def groupText (key : String) : String :=
  "invalid group option: " ++ key

/-- The wording of an error. -/
def message (w : Wording) : QueryError → String
  | noModuleArgument => "missing required input: at least one module argument is required"
  | unknownValue option value =>
    "invalid configuration: unknown " ++ option.text ++ " value " ++ Text.quoted value
  | unknownGroup key => "invalid configuration: " ++ groupText key
  | symbolNotFound reference => "symbol not found: " ++ reference
  | construction failure => "call graph construction failed: " ++ joinChain (failure.chain w)
  | interrupted cause => "query interrupted: " ++ cause.text
  | noSuchStart => "the start of a walk is no node"

end QueryError

end CallGraph
