/-!
**Machine words.**

Numbers that come in from outside have to fit into a word of so many bits.

* `largest` — the largest natural number that does;
* `isSigned` — whether an integer does, with its sign.
-/

namespace CallGraph.Word

/-- The largest natural number of so many bits. -/
def largest (bits : Nat) : Nat :=
  Nat.pow 2 bits - 1

/-- Whether an integer fits into so many bits, one of them for its sign. -/
def isSigned (bits : Nat) (n : Int) : Bool :=
  -(largest (bits - 1) : Int) - 1 ≤ n && n ≤ (largest (bits - 1) : Int)

end CallGraph.Word
