/-!
**Verdicts on calls.**

A filter either keeps a call or names the one stage that drops it.
-/

namespace CallGraph

/-- Why a call is dropped, in the order the stages are tried. -/
inductive DropReason where
  /-- An endpoint is no node of the graph. -/
  | dangling
  /-- The call, or an endpoint, was put in by a builder, or an endpoint has no module. -/
  | synthetic
  | standardLibrary
  | unexported
  | notIncluded
  | outsideLimit
  | ignored
  | outOfFocus
  deriving DecidableEq, Repr

namespace DropReason

/-- All reasons, in order. -/
def all : List DropReason :=
  [dangling, synthetic, standardLibrary, unexported, notIncluded, outsideLimit, ignored, outOfFocus]

/-- The word a reason is shown by. -/
def name : DropReason → String
  | dangling => "Dangling"
  | synthetic => "Synthetic"
  | standardLibrary => "StandardLibrary"
  | unexported => "Unexported"
  | notIncluded => "NotIncluded"
  | outsideLimit => "OutsideLimit"
  | ignored => "Ignored"
  | outOfFocus => "OutOfFocus"

/-- Every reason is listed. -/
theorem mem_all (reason : DropReason) : reason ∈ all := by
  cases reason <;> decide

end DropReason

/-- What a filter says of a call: nothing if it keeps it, else why not. -/
abbrev Verdict := Option DropReason

/-- How often each reason occurs among verdicts, in the order of the reasons; those that never occur
are left out. -/
def tally (verdicts : List Verdict) : List (DropReason × Nat) :=
  (DropReason.all.map fun reason => (reason, verdicts.count (some reason))).filter (0 < ·.2)

end CallGraph
