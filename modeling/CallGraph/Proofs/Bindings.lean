import CallGraph.Source.Facts

/-!
**A tree of imports brings in its leaves.**

A tree of imports is walked with the names above in hand. What comes out can be said without them:
each leaf has a way to it from the root, and stands for what is at the end of that way. A last `self`
is no step of the way. It stands for what it is below, and so it has to be left out.

* `UseTree.Leaf`, `UseTree.leaves` — the leaves of a tree, in the order in which they are written;
* `Leaf.meaning` — the name that a leaf brings in, and the path that it stands for;
* `UseTree.bindings_eq` — what a walk takes a leaf for;
* `UseTree.bindings_eq_iff` — that is its meaning, except for a `self` that gets another name;
* `renamed_self_is_taken_literally` — such a tree.
-/

namespace CallGraph.Source

namespace UseTree

/-! ### Leaves -/

/-- **A leaf of a tree of imports.** -/
structure Leaf where
  /-- The names on the way to it, its own included. -/
  names : List String
  /-- The name that it gets, if the import gives it one. -/
  shown : Option String
  deriving DecidableEq, Repr

namespace Leaf

/-- A leaf with more names above it. -/
def under (above : List String) (l : Leaf) : Leaf :=
  { l with names := above ++ l.names }

/-- A leaf that stands for what it is below. -/
def IsSelf (l : Leaf) : Prop :=
  l.names.getLast? = some "self"

instance : DecidablePred IsSelf := fun l =>
  inferInstanceAs (Decidable (l.names.getLast? = some "self"))

/-- **The path that a leaf stands for**: the way to it, without a last `self`. -/
def path (l : Leaf) : List String :=
  if l.IsSelf then l.names.dropLast else l.names

/-- **The name that a leaf brings in**: the one that it is given, else the last of its path. -/
def name (l : Leaf) : String :=
  l.shown.getD (l.path.getLast?.getD "")

/-- What a leaf brings in, and what that stands for. -/
def meaning (l : Leaf) : String × List String :=
  (l.name, l.path)

/-- What a walk takes a leaf for: if it is given a name, a last `self` stays. -/
def taken (l : Leaf) : String × List String :=
  (l.name, if l.shown.isSome then l.names else l.path)

theorem under_under (above below : List String) (l : Leaf) :
    (l.under below).under above = l.under (above ++ below) := by
  simp only [under, List.append_assoc]

/-- A `self` stands for what it is below. -/
theorem path_self (above : List String) (shown : Option String) :
    (⟨above ++ ["self"], shown⟩ : Leaf).path = above := by
  have isSelf : (⟨above ++ ["self"], shown⟩ : Leaf).IsSelf := List.getLast?_concat
  rw [path, if_pos isSelf, List.dropLast_concat]

/-- Any other leaf stands for itself. -/
theorem path_other {text : String} (other : text ≠ "self") (above : List String)
    (shown : Option String) : (⟨above ++ [text], shown⟩ : Leaf).path = above ++ [text] := by
  refine if_neg fun isSelf => other ?_
  rw [IsSelf, List.getLast?_concat] at isSelf
  exact Option.some.inj isSelf

/-- A leaf is taken for something else than it means exactly if it is a `self` with a name. -/
theorem taken_eq_meaning_iff {l : Leaf} (named : l.path ≠ []) :
    l.taken = l.meaning ↔ (l.shown.isSome = true → ¬l.IsSelf) := by
  rw [taken, meaning, Prod.mk.injEq, eq_self, true_and]
  by_cases given : l.shown.isSome = true
  · rw [if_pos given, imp_iff_right given, path]
    by_cases isSelf : l.IsSelf
    · rw [path, if_pos isSelf] at named
      rw [if_pos isSelf, iff_false_right (not_not_intro isSelf)]
      intro same
      have shorter := congrArg List.length same
      have longer := List.length_pos_iff.2 named
      rw [List.length_dropLast] at shorter longer
      omega
    · rw [if_neg isSelf]
      exact iff_of_true rfl isSelf
  · rw [if_neg given]
    exact iff_of_true rfl fun yes => absurd yes given

end Leaf

mutual

/-- **The leaves of a tree of imports**, in the order in which they are written. Everything in a
module is no leaf. -/
def leaves : UseTree → List Leaf
  | .inside name tree => (leaves tree).map (Leaf.under [name.text])
  | .leaf name => [⟨[name.text], none⟩]
  | .renamed name shown => [⟨[name.text], some shown.text⟩]
  | .everything => []
  | .group trees => listLeaves trees

/-- The leaves of several trees. -/
def listLeaves : List UseTree → List Leaf
  | [] => []
  | t :: rest => leaves t ++ listLeaves rest

end

/-! ### Walks -/

mutual

/-- **A walk takes up one name for each leaf**, in order, if none is a `self` with nothing above. -/
theorem bindings_eq (above : List String) (t : UseTree)
    (named : ∀ l ∈ t.leaves, (l.under above).path ≠ []) :
    t.bindings above = t.leaves.map fun l => (l.under above).taken := by
  match t with
  | .inside name tree =>
    -- The walk has one more name above; the leaves get it put in front, which is the same in the end.
    rw [leaves, List.forall_mem_map] at named
    simp only [Leaf.under_under] at named
    rw [bindings, leaves, List.map_map, bindings_eq (above ++ [name.text]) tree named]
    simp only [Function.comp_def, Leaf.under_under]
  | .leaf name =>
    rw [leaves, List.forall_mem_singleton] at named
    rw [bindings, leaves, List.map_singleton, Leaf.taken, Leaf.name]
    dsimp only [Leaf.under] at named ⊢
    by_cases isSelf : name.text = "self"
    · rw [isSelf, Leaf.path_self] at named ⊢
      obtain ⟨owner, last⟩ := Option.ne_none_iff_exists'.1 (mt List.getLast?_eq_none_iff.1 named)
      rw [if_pos rfl, last]
      rfl
    · rw [if_neg isSelf, Leaf.path_other isSelf, List.getLast?_concat]
      rfl
  | .renamed name shown =>
    rw [bindings, leaves, List.map_singleton]
    rfl
  | .everything =>
    rw [bindings, leaves, List.map_nil]
  | .group trees =>
    rw [leaves] at named
    rw [bindings, leaves]
    exact listBindings_eq above trees named

/-- A walk over several trees. -/
theorem listBindings_eq (above : List String) (trees : List UseTree)
    (named : ∀ l ∈ listLeaves trees, (l.under above).path ≠ []) :
    listBindings above trees = (listLeaves trees).map fun l => (l.under above).taken := by
  match trees with
  | [] => rw [listBindings, listLeaves, List.map_nil]
  | t :: rest =>
    rw [listLeaves, List.forall_mem_append] at named
    rw [listBindings, listLeaves, List.map_append, bindings_eq above t named.1,
      listBindings_eq above rest named.2]

end

/-- **A tree of imports brings in one name for each leaf, in order.** It is what the leaf means,
unless the leaf is a `self` that gets another name: then the name stands for a path that goes on to
`self`. -/
theorem bindings_eq_iff (t : UseTree) (named : ∀ l ∈ t.leaves, l.path ≠ []) :
    t.bindings [] = t.leaves.map Leaf.taken ∧
    (t.bindings [] = t.leaves.map Leaf.meaning ↔
      ∀ l ∈ t.leaves, l.shown.isSome = true → ¬l.IsSelf) := by
  have walked : t.bindings [] = t.leaves.map Leaf.taken := t.bindings_eq [] named
  refine ⟨walked, ?_⟩
  rw [walked, List.map_inj_left]
  exact forall₂_congr fun l here => Leaf.taken_eq_meaning_iff (named l here)

/-- A name by its text. -/
def nameOf (text : String)
    (plain : text.toList.all isNameChar = true := by decide +kernel) : Name :=
  ⟨text, List.all_eq_true.1 plain⟩

/-- `crate::net::{self, *, tcp::dial as connect}`. -/
def netAndDial : UseTree :=
  .inside (nameOf "crate") <| .inside (nameOf "net") <| .group
    [.leaf (nameOf "self"), .everything,
      .inside (nameOf "tcp") (.renamed (nameOf "dial") (nameOf "connect"))]

theorem bindings_eq_iff_netAndDial :
    (∀ l ∈ netAndDial.leaves, l.path ≠ []) ∧
    (netAndDial.bindings [] = netAndDial.leaves.map Leaf.taken ∧
      (netAndDial.bindings [] = netAndDial.leaves.map Leaf.meaning ↔
        ∀ l ∈ netAndDial.leaves, l.shown.isSome = true → ¬l.IsSelf)) ∧
    netAndDial.bindings [] =
      [("net", ["crate", "net"]), ("connect", ["crate", "net", "tcp", "dial"])] := by
  have each : ∀ l ∈ netAndDial.leaves, l.path ≠ [] := by decide
  exact ⟨each, bindings_eq_iff netAndDial each, by decide⟩

/-- `crate::net::{self as n}`. -/
def netRenamed : UseTree :=
  .inside (nameOf "crate") <| .inside (nameOf "net") <| .group
    [.renamed (nameOf "self") (nameOf "n")]

/-- **A `self` that gets another name is taken literally**: the tree above gives `n` to what would
be called `self` in the module `net`, and not to that module. -/
theorem renamed_self_is_taken_literally :
    ¬∀ t : UseTree, (∀ l ∈ t.leaves, l.path ≠ []) → t.bindings [] = t.leaves.map Leaf.meaning := by
  intro all
  have same := all netRenamed (by decide)
  have literal : netRenamed.bindings [] = [("n", ["crate", "net", "self"])] := by decide
  have meant : netRenamed.leaves.map Leaf.meaning = [("n", ["crate", "net"])] := by decide
  rw [literal, meant] at same
  exact absurd same (by decide)

end UseTree

end CallGraph.Source
