import CallGraph.Document
import CallGraph.Json.Decode

/-!
**Graph documents as text.**

Optional fields that have no value are left out when a document is written, and so is an empty list
of roots; truth values are always written.
-/

namespace CallGraph

/-- The largest line number that a document can give. -/
def maxLine : Nat :=
  Word.largest 64

/-- A member that is written only if it has a value. -/
def optionalMember (key : String) (value : Option Json) : List (String × Json) :=
  (value.map fun j => (key, j)).toList

namespace NodeRecord

open Json

/-- A node as a value. -/
def toJson (r : NodeRecord) : Json :=
  .object <|
    [("id", .string r.id), ("name", .string r.name)] ++
    optionalMember "module_path" (r.modulePath.map .string) ++
    optionalMember "module_name" (r.moduleName.map .string) ++
    optionalMember "file" (r.file.map .string) ++
    optionalMember "line" (r.line.map .nat) ++
    [("is_std", .bool r.isStd), ("exported", .bool r.exported)] ++
    optionalMember "receiver_type" (r.receiver.map .string) ++
    [("synthetic", .bool r.synthetic)]

/-- The fields of a node, in order. -/
def fields : List (RecordField NodeRecord) :=
  [.must "id" text fun r x => { r with id := x },
    .must "name" text fun r x => { r with name := x },
    .maybe "module_path" (optional text) fun r x => { r with modulePath := x },
    .maybe "module_name" (optional text) fun r x => { r with moduleName := x },
    .maybe "file" (optional text) fun r x => { r with file := x },
    .maybe "line" (optional (natural maxLine)) fun r x => { r with line := x },
    .maybe "is_std" boolean fun r x => { r with isStd := x },
    .maybe "exported" boolean fun r x => { r with exported := x },
    .maybe "receiver_type" (optional text) fun r x => { r with receiver := x },
    .maybe "synthetic" boolean fun r x => { r with synthetic := x }]

/-- Reads a node. -/
def decode : Decoder NodeRecord :=
  record fields { id := "", name := "" }

end NodeRecord

namespace EdgeRecord

open Json

/-- A call as a value. -/
def toJson (r : EdgeRecord) : Json :=
  .object <|
    [("caller", .string r.caller), ("callee", .string r.callee)] ++
    optionalMember "file" (r.file.map .string) ++
    optionalMember "line" (r.line.map .nat) ++
    [("synthetic", .bool r.synthetic)]

/-- The fields of a call, in order. -/
def fields : List (RecordField EdgeRecord) :=
  [.must "caller" text fun r x => { r with caller := x },
    .must "callee" text fun r x => { r with callee := x },
    .maybe "file" (optional text) fun r x => { r with file := x },
    .maybe "line" (optional (natural maxLine)) fun r x => { r with line := x },
    .maybe "synthetic" boolean fun r x => { r with synthetic := x }]

/-- Reads a call. -/
def decode : Decoder EdgeRecord :=
  record fields { caller := "", callee := "" }

end EdgeRecord

namespace Document

open Json

/-- A document as a value. -/
def toJson (d : Document) : Json :=
  .object <|
    [("nodes", .array (d.nodes.map NodeRecord.toJson)),
      ("edges", .array (d.edges.map EdgeRecord.toJson))] ++
    optionalMember "roots" (if d.roots.isEmpty then none else some (.array (d.roots.map .string)))

/-- The fields of a document, in order. -/
def fields : List (RecordField Document) :=
  [.maybe "nodes" (list NodeRecord.decode) fun d x => { d with nodes := x },
    .maybe "edges" (list EdgeRecord.decode) fun d x => { d with edges := x },
    .maybe "roots" (list text) fun d x => { d with roots := x }]

/-- Reads a document. -/
def decode : Decoder Document :=
  record fields {}

/-- Reads a document from a text. -/
def ofText (text : String) : Except Fault Document :=
  readText decode text

/-- A document as text. -/
def toText (d : Document) : String :=
  d.toJson.pretty

end Document

end CallGraph
