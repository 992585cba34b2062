import CallGraph.Source.Literal

/-!
**Names.**

The names and keywords of a source text. All of them are written with the characters of identifiers,
and with the hash of the `r#` that stands in front of a name that would be a keyword.

* `Name` — such a word; `not_mem`: no other character is in it;
* `Name.length?`, `Name.at?` — the one at the start of some characters.
-/

namespace CallGraph.Source

open Text.Identifier (isStart isContinue)

/-- Whether a character may be part of a name. -/
def isNameChar (c : Char) : Bool :=
  isStart c || isContinue c || c == '#'

/-- A name or a keyword; names that would be keywords keep their `r#`. -/
structure Name where
  text : String
  plain : ∀ c ∈ text.toList, isNameChar c = true
  deriving DecidableEq, Repr

namespace Name

instance : Inhabited Name := ⟨"", fun _ here => absurd here List.not_mem_nil⟩

/-- A character that no name is written with is in no name. -/
theorem not_mem {c : Char} (other : isNameChar c = false) (n : Name) : c ∉ n.text.toList := by
  intro here
  rw [n.plain c here] at other
  cases other

/-- The length of the name at the start, with its `r#` if it has one. -/
def length? (cs : List Char) : Option Nat :=
  if "r#".toList.isPrefixOf cs then
    let n := Literal.nameLength (cs.drop 2)
    if n = 0 || String.ofList ((cs.drop 2).take n) ∈ ["_", "super", "self", "Self", "crate"] then
      none
    else some (n + 2)
  else
    let n := Literal.nameLength cs
    if n = 0 then none else some n

/-- A name goes on as long as there are characters to go on with. -/
theorem isNameChar_of_mem_take {c : Char} {cs : List Char}
    (here : c ∈ cs.take (Literal.nameLength cs)) : isNameChar c = true := by
  unfold Literal.nameLength at here
  split at here
  · exact absurd here List.not_mem_nil
  · rename_i first rest
    split at here
    · rename_i starts
      rw [Nat.add_comm, List.take_succ_cons,
        ← List.prefix_iff_eq_take.1 (List.takeWhile_prefix isContinue), List.mem_cons] at here
      rcases here with same | inRest
      · simp [isNameChar, same, starts]
      · simp [isNameChar, List.all_eq_true.1 List.all_takeWhile c inRest]
    · exact absurd here List.not_mem_nil

theorem plain_of_length? {cs : List Char} {n : Nat} (found : length? cs = some n) :
    ∀ c ∈ (String.ofList (cs.take n)).toList, isNameChar c = true := by
  intro c here
  rw [String.toList_ofList] at here
  unfold length? at found
  split at found
  · rename_i raw
    obtain ⟨rest, rfl⟩ := List.isPrefixOf_iff_prefix.1 raw
    dsimp only at found
    split at found
    · cases found
    · cases found
      have mark : "r#".toList = ['r', '#'] := by decide
      rw [mark] at here
      simp only [List.cons_append, List.nil_append, List.drop_succ_cons, List.drop_zero,
        List.take_succ_cons, List.mem_cons] at here
      rcases here with rfl | rfl | inRest
      · decide
      · decide
      · exact isNameChar_of_mem_take inRest
  · dsimp only at found
    split at found
    · cases found
    · cases found
      exact isNameChar_of_mem_take here

/-- The name at the start, and its length. -/
def at? (cs : List Char) : Option (Nat × Name) :=
  match found : length? cs with
  | none => none
  | some n => some (n, ⟨String.ofList (cs.take n), plain_of_length? found⟩)

end Name

end CallGraph.Source
