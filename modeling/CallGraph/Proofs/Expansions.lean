import CallGraph.Source.Grammar.Type
import Mathlib.Data.Option.Basic

/-!
**What is read of the use of a macro.**

What stands in the brackets of a macro is read a second time, as expressions with commas between them.
If it is a list of such, these are the arguments of the macro; if it is anything else, nothing is kept of
it.

* `Parse.bind_eq_some_iff`, `mark_eq_some_iff`, `anyGroup_eq_some_iff` — what single readers take;
* `Divided` — trees that are a list, entry by entry; `Parse.whole_listed_eq_some_iff` — by induction on
  what is left to read;
* `Expands`, `expansion_eq_some_iff` — the use of a macro.
-/

namespace CallGraph.Source

/-- **Trees that are a list of what `p` reads**, with a comma after each entry but perhaps the last. -/
inductive Divided {α : Type} (p : Parse α) : List Tree → List α → Prop
  | nothing : Divided p [] []
  | last {trees : List Tree} {a : α} (more : trees ≠ []) (read : p trees = some (a, [])) :
    Divided p trees [a]
  | entry {trees rest : List Tree} {a : α} {others : List α} {line : Nat} {joint : Bool}
    (read : p trees = some (a, .mark line ',' joint :: rest)) (less : rest.length < trees.length)
    (later : Divided p rest others) : Divided p trees (a :: others)

namespace Parse

section

variable {α β : Type} {p : Parse α} {f : α → Parse β} {trees rest : List Tree}

/-! ### Single readers -/

/-- One reader after another. -/
theorem bind_eq_some_iff {b : β} : (p >>= f) trees = some (b, rest) ↔
    ∃ a between, p trees = some (a, between) ∧ f a between = some (b, rest) := by
  show (p trees).bind (fun r => f r.1 r.2) = _ ↔ _
  rw [Option.bind_eq_some_iff, Prod.exists]

theorem pure_eq_some_iff {a b : α} : (pure a : Parse α) trees = some (b, rest) ↔
    a = b ∧ trees = rest := by
  show some (a, trees) = some (b, rest) ↔ _
  rw [Option.some.injEq, Prod.mk.injEq]

theorem guard_eq_some_iff {holds : Prop} [Decidable holds] {u : Unit} :
    (guard holds : Parse Unit) trees = some (u, rest) ↔ holds ∧ trees = rest := by
  show (if holds then pure () else failure : Parse Unit) trees = some (u, rest) ↔ _
  by_cases yes : holds
  · rw [if_pos yes, pure_eq_some_iff, and_iff_right yes, and_iff_right (Subsingleton.elim _ u)]
  · rw [if_neg yes]
    refine ⟨fun read => ?_, fun known => absurd known.1 yes⟩
    cases read

/-- A single mark stands at the front. -/
theorem startsMark_iff {operator : String} {c : Char} (single : operator.toList = [c]) :
    startsMark operator trees = true ↔ ∃ line joint rest, trees = .mark line c joint :: rest := by
  rw [startsMark, single]
  cases trees with
  | nil => exact ⟨nofun, nofun⟩
  | cons t rest =>
    cases t with
    | mark line d joint =>
      rw [startsMarks, beq_iff_eq]
      constructor
      · rintro rfl
        exact ⟨line, joint, rest, rfl⟩
      · rintro ⟨_, _, _, same⟩
        cases same
        rfl
    | _ => exact ⟨nofun, nofun⟩

/-- An operator of one character. -/
theorem mark_eq_some_iff {operator : String} {c : Char} (single : operator.toList = [c]) {u : Unit} :
    mark operator trees = some (u, rest) ↔ ∃ line joint, trees = .mark line c joint :: rest := by
  have one : operator.length = 1 := by rw [← String.length_toList, single, List.length_singleton]
  have taken : mark operator trees = some (u, rest) ↔
      startsMark operator trees = true ∧ trees.drop 1 = rest := by
    unfold mark
    rw [bind_eq_some_iff]
    constructor
    · rintro ⟨starts, between, looked, later⟩
      obtain ⟨rfl, rfl⟩ := pure_eq_some_iff.1 looked
      obtain ⟨_, between, guarded, skipped⟩ := bind_eq_some_iff.1 later
      obtain ⟨holds, rfl⟩ := guard_eq_some_iff.1 guarded
      rw [one] at skipped
      cases skipped
      exact ⟨holds, rfl⟩
    · rintro ⟨holds, rfl⟩
      refine ⟨_, trees, rfl, bind_eq_some_iff.2 ⟨(), trees, guard_eq_some_iff.2 ⟨holds, rfl⟩, ?_⟩⟩
      rw [one]
      rfl
  rw [taken, startsMark_iff single]
  constructor
  · rintro ⟨⟨line, joint, others, rfl⟩, rfl⟩
    exact ⟨line, joint, rfl⟩
  · rintro ⟨line, joint, rfl⟩
    exact ⟨⟨line, joint, rest, rfl⟩, rfl⟩

/-- A group between brackets of any kind. -/
theorem anyGroup_eq_some_iff {d : Delimiter} {inside : List Tree} :
    anyGroup trees = some ((d, inside), rest) ↔ ∃ line, trees = .group line d inside :: rest := by
  cases trees with
  | nil => exact ⟨nofun, nofun⟩
  | cons t others =>
    cases t with
    | group line e inner =>
      show some ((e, inner), others) = some ((d, inside), rest) ↔ _
      simp
    | _ => exact ⟨nofun, nofun⟩

theorem whole_eq_some_iff {a : α} : whole p trees = some a ↔ p trees = some (a, []) := by
  unfold whole
  cases p trees with
  | none => exact ⟨nofun, nofun⟩
  | some r =>
    obtain ⟨b, left⟩ := r
    cases left with
    | nil => simp
    | cons t left => simp

/-! ### Lists between commas -/

/-- At the end a list is read. -/
theorem separatedWith_nil {fuel : Nat} {as : List α} :
    separatedWith "," List.isEmpty p (fuel + 1) [] = some (as, rest) ↔ as = [] ∧ rest = [] := by
  show some (([], []) : List α × List Tree) = some (as, rest) ↔ _
  rw [Option.some.injEq, Prod.mk.injEq]
  exact and_congr eq_comm eq_comm

/-- **What one step of a list reads**: the last entry, or an entry and the comma after it. -/
theorem separatedWith_eq_some_iff {fuel : Nat} {as : List α} (more : trees ≠ []) :
    separatedWith "," List.isEmpty p (fuel + 1) trees = some (as, rest) ↔
      ∃ a, (p trees = some (a, []) ∧ as = [a] ∧ rest = []) ∨
        ∃ line joint next others, p trees = some (a, .mark line ',' joint :: next) ∧
          next.length < trees.length ∧
          separatedWith "," List.isEmpty p fuel next = some (others, rest) ∧ as = a :: others := by
  have empty : trees.isEmpty = false := by simpa using more
  rw [separatedWith, bind_eq_some_iff]
  constructor
  · rintro ⟨_, _, got, later⟩
    cases got
    rw [empty, if_neg Bool.false_ne_true] at later
    obtain ⟨a, between, read, later⟩ := bind_eq_some_iff.1 later
    obtain ⟨_, _, looked, later⟩ := bind_eq_some_iff.1 later
    cases looked
    refine ⟨a, ?_⟩
    cases between with
    | nil =>
      cases later
      exact Or.inl ⟨read, rfl, rfl⟩
    | cons t others =>
      obtain ⟨_, next, marked, later⟩ := bind_eq_some_iff.1 later
      obtain ⟨line, joint, same⟩ := (mark_eq_some_iff rfl).1 marked
      obtain ⟨_, _, got, later⟩ := bind_eq_some_iff.1 later
      cases got
      obtain ⟨_, _, guarded, later⟩ := bind_eq_some_iff.1 later
      obtain ⟨less, rfl⟩ := guard_eq_some_iff.1 guarded
      obtain ⟨others, left, rest', done⟩ := bind_eq_some_iff.1 later
      obtain ⟨rfl, rfl⟩ := pure_eq_some_iff.1 done
      exact Or.inr ⟨line, joint, next, others, same ▸ read, less, rest', rfl⟩
  · rintro ⟨a, ⟨read, rfl, rfl⟩ | ⟨line, joint, next, others, read, less, later, rfl⟩⟩
    · refine ⟨trees, trees, rfl, ?_⟩
      rw [empty, if_neg Bool.false_ne_true, bind_eq_some_iff]
      exact ⟨a, [], read, rfl⟩
    · refine ⟨trees, trees, rfl, ?_⟩
      rw [empty, if_neg Bool.false_ne_true, bind_eq_some_iff]
      refine ⟨a, _, read, bind_eq_some_iff.2 ⟨false, _, rfl, ?_⟩⟩
      refine bind_eq_some_iff.2 ⟨(), next, (mark_eq_some_iff rfl).2 ⟨line, joint, rfl⟩, ?_⟩
      refine bind_eq_some_iff.2 ⟨next, next, rfl, ?_⟩
      refine bind_eq_some_iff.2 ⟨(), next, guard_eq_some_iff.2 ⟨less, rfl⟩, ?_⟩
      exact bind_eq_some_iff.2 ⟨others, rest, later, rfl⟩

/-- A list is read entry by entry, as long as it may have as many as there are trees. -/
theorem separatedWith_eq_some_nil_iff {fuel : Nat} {as : List α} (enough : trees.length < fuel) :
    separatedWith "," List.isEmpty p fuel trees = some (as, []) ↔ Divided p trees as := by
  induction fuel generalizing trees as with
  | zero => exact absurd enough (Nat.not_lt_zero _)
  | succ fuel hyp =>
    by_cases nothing : trees = []
    · subst nothing
      rw [separatedWith_nil, and_iff_left rfl]
      constructor
      · rintro rfl
        exact .nothing
      · intro divided
        cases divided with
        | nothing => rfl
        | last more _ => exact absurd rfl more
        | entry _ less _ => exact absurd less (Nat.not_lt_zero _)
    · rw [separatedWith_eq_some_iff nothing]
      constructor
      · rintro ⟨a, ⟨read, rfl, _⟩ | ⟨line, joint, next, others, read, less, later, rfl⟩⟩
        · exact .last nothing read
        · exact .entry read less ((hyp (by omega)).1 later)
      · intro divided
        cases divided with
        | nothing => exact absurd rfl nothing
        | last _ read => exact ⟨_, Or.inl ⟨read, rfl, rfl⟩⟩
        | entry read less later =>
          exact ⟨_, Or.inr ⟨_, _, _, _, read, less, (hyp (by omega)).2 later, rfl⟩⟩

/-- **Trees are read as a list between commas exactly if they are one.** -/
theorem whole_listed_eq_some_iff {as : List α} : whole (listed p) trees = some as ↔
    Divided p trees as := by
  rw [whole_eq_some_iff, ← separatedWith_eq_some_nil_iff (Nat.lt_succ_self trees.length)]
  rfl

end

end Parse

namespace Grammar

open Parse

/-- **The use of a macro as it is read**: an exclamation mark and a group. If what the group holds is a
list of expressions, these are the arguments; else there are none. -/
inductive Expands (g : Grammar) (p : PathForm) : List Tree → Delimiter → Code → List Tree → Prop
  | listed {line place : Nat} {joint : Bool} {d : Delimiter} {inside rest : List Tree}
    {arguments : List Expr} (divided : Divided (g.expression true) inside arguments) :
    Expands g p (.mark line '!' joint :: .group place d inside :: rest) d
      (.expansion p.name.names p.line (arguments.map Expr.code)) rest
  | other {line place : Nat} {joint : Bool} {d : Delimiter} {inside rest : List Tree}
    (none : ∀ arguments, ¬ Divided (g.expression true) inside arguments) :
    Expands g p (.mark line '!' joint :: .group place d inside :: rest) d
      (.expansion p.name.names p.line []) rest

/-- **The use of a macro is read as it stands.** -/
theorem expansion_eq_some_iff {g : Grammar} {p : PathForm} {trees rest : List Tree} {d : Delimiter}
    {c : Code} : expansion g p trees = some ((d, c), rest) ↔ Expands g p trees d c rest := by
  unfold expansion
  rw [bind_eq_some_iff]
  constructor
  · rintro ⟨_, between, marked, later⟩
    obtain ⟨line, joint, rfl⟩ := (mark_eq_some_iff rfl).1 marked
    obtain ⟨⟨d', inside⟩, left, grouped, done⟩ := bind_eq_some_iff.1 later
    obtain ⟨place, rfl⟩ := anyGroup_eq_some_iff.1 grouped
    obtain ⟨same, rfl⟩ := pure_eq_some_iff.1 done
    cases read : whole (listed (g.expression true)) inside with
    | some arguments =>
      rw [read] at same
      cases same
      exact .listed (whole_listed_eq_some_iff.1 read)
    | none =>
      rw [read] at same
      cases same
      refine .other fun arguments divided => ?_
      rw [whole_listed_eq_some_iff.2 divided] at read
      cases read
  · intro expands
    cases expands with
    | @listed line place joint _ inside _ arguments divided =>
      refine ⟨(), _, (mark_eq_some_iff rfl).2 ⟨line, joint, rfl⟩, bind_eq_some_iff.2
        ⟨(d, inside), rest, anyGroup_eq_some_iff.2 ⟨place, rfl⟩, pure_eq_some_iff.2 ⟨?_, rfl⟩⟩⟩
      rw [whole_listed_eq_some_iff.2 divided]
      rfl
    | @other line place joint _ inside _ none =>
      refine ⟨(), _, (mark_eq_some_iff rfl).2 ⟨line, joint, rfl⟩, bind_eq_some_iff.2
        ⟨(d, inside), rest, anyGroup_eq_some_iff.2 ⟨place, rfl⟩, pure_eq_some_iff.2 ⟨?_, rfl⟩⟩⟩
      cases read : whole (listed (g.expression true)) inside with
      | none => rfl
      | some arguments => exact absurd (whole_listed_eq_some_iff.1 read) (none arguments)

end Grammar

end CallGraph.Source
