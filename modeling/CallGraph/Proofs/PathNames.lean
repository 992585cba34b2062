import CallGraph.ModulePath
import Mathlib.Data.List.Infix

/-!
**The names of a module path.**

A name of a path stands between separators, or between a separator and an end of the path. This is
what cutting a text into pieces comes to, said without cutting it, and what makes a module one of the
platform's library or of its plumbing.

* `Text.mem_pieces_iff`, `Text.find?_pieces_iff` — the pieces of a text, and the first that is not
  empty;
* `ModulePath.HasName`, `ModulePath.FirstName` — the names of a path, and the first of them;
* `ModulePath.isStandard_iff`, `ModulePath.isInternal_iff` — what modules these are.
-/

namespace CallGraph

namespace Text

variable {α : Type} {cut : α → Bool}

/-- Induction along the pieces of a list: it is one piece, or goes on behind a separator. -/
@[elab_as_elim]
theorem pieces_induction (cut : α → Bool) {holds : List α → Prop}
    (whole : ∀ xs, (∀ a ∈ xs, cut a = false) → holds xs)
    (goesOn : ∀ first b rest, (∀ a ∈ first, cut a = false) → cut b = true → holds rest →
      holds (first ++ b :: rest)) (xs : List α) : holds xs := by
  have all : ∀ first, (∀ a ∈ first, cut a = false) → holds (first ++ xs) := by
    induction xs with
    | nil =>
      intro first free
      rw [List.append_nil]
      exact whole first free
    | cons b rest hyp =>
      intro first free
      cases ends : cut b with
      | true => exact goesOn first b rest free ends (hyp [] fun a here => absurd here List.not_mem_nil)
      | false =>
        rw [List.append_cons]
        refine hyp _ fun a here => ?_
        rcases List.mem_append.1 here with inFirst | last
        · exact free a inFirst
        · exact List.mem_singleton.1 last ▸ ends
  exact all [] fun a here => absurd here List.not_mem_nil

/-- A part without separators that reaches to a separator, or to an end of the list, on both sides. -/
structure Stands (cut : α → Bool) (part xs : List α) : Prop where
  free : ∀ a ∈ part, cut a = false
  reaches : ∃ before after, xs = before ++ part ++ after ∧
    (∀ a ∈ before.getLast?, cut a = true) ∧ ∀ a ∈ after.head?, cut a = true

variable {part first rest before after xs : List α} {b : α}

/-- Nothing stands before a part that begins a list without separators. -/
theorem eq_nil_of_getLast? (free : ∀ a ∈ before, cut a = false)
    (ends : ∀ a ∈ before.getLast?, cut a = true) : before = [] := by
  cases last : before.getLast? with
  | none => exact List.getLast?_eq_none_iff.1 last
  | some a =>
    have inBefore := free a (List.mem_of_getLast? last)
    rw [ends a last] at inBefore
    cases inBefore

/-- A part reaches to the first separator behind it. -/
theorem eq_of_append_cut (freePart : ∀ a ∈ part, cut a = false)
    (freeFirst : ∀ a ∈ first, cut a = false) (cutB : cut b = true)
    (ends : ∀ a ∈ after.head?, cut a = true) (same : first ++ b :: rest = part ++ after) :
    part = first := by
  rcases List.append_eq_append_iff.1 same with ⟨more, rfl, tail⟩ | ⟨more, rfl, tail⟩
  · cases more with
    | nil => exact List.append_nil _
    | cons c more =>
      obtain ⟨rfl, _⟩ := List.cons.inj tail
      have free := freePart b (List.mem_append_right _ List.mem_cons_self)
      rw [cutB] at free
      cases free
  · cases more with
    | nil => exact (List.append_nil _).symm
    | cons c more =>
      have free := freeFirst c (List.mem_append_right _ List.mem_cons_self)
      rw [ends c (by rw [tail]; rfl)] at free
      cases free

/-- A list without separators is the only part that stands in it. -/
theorem stands_whole_iff (free : ∀ a ∈ xs, cut a = false) : Stands cut part xs ↔ part = xs := by
  constructor
  · rintro ⟨_, before, after, rfl, atFront, atBack⟩
    have front : before = [] := eq_nil_of_getLast?
      (fun a here => free a (List.mem_append_left _ (List.mem_append_left _ here))) atFront
    cases after with
    | nil => rw [front, List.nil_append, List.append_nil]
    | cons c after =>
      have inside := free c (List.mem_append_right _ List.mem_cons_self)
      rw [atBack c rfl] at inside
      cases inside
  · rintro rfl
    exact ⟨free, [], [], by simp, by simp, by simp⟩

/-- What stands in a list is its first piece, or stands behind the separator that ends it. -/
theorem stands_cut_iff (free : ∀ a ∈ first, cut a = false) (ends : cut b = true) :
    Stands cut part (first ++ b :: rest) ↔ part = first ∨ Stands cut part rest := by
  constructor
  · rintro ⟨freePart, before, after, same, atFront, atBack⟩
    rw [List.append_assoc] at same
    rcases List.append_eq_append_iff.1 same with ⟨more, rfl, tail⟩ | ⟨more, rfl, tail⟩
    · cases more with
      | nil =>
        rw [List.append_nil] at atFront
        obtain rfl := eq_nil_of_getLast? free atFront
        exact Or.inl (eq_of_append_cut freePart free ends atBack tail)
      | cons c more =>
        obtain ⟨rfl, behind⟩ := List.cons.inj tail
        refine Or.inr ⟨freePart, more, after, ?_, fun a last => atFront a ?_, atBack⟩
        · rw [List.append_assoc]
          exact behind
        · rw [List.getLast?_append, List.getLast?_cons, Option.mem_def.1 last]
          rfl
    · obtain rfl := eq_nil_of_getLast? (fun a here => free a (List.mem_append_left _ here)) atFront
      exact Or.inl (eq_of_append_cut freePart free ends atBack tail.symm)
  · rintro (rfl | ⟨freePart, before, after, rfl, atFront, atBack⟩)
    · exact ⟨free, [], b :: rest, by simp, by simp, fun a here => Option.some.inj here ▸ ends⟩
    · refine ⟨freePart, first ++ b :: before, after, by simp, fun a last => ?_, atBack⟩
      rw [List.getLast?_append, List.getLast?_cons] at last
      cases behind : before.getLast? with
      | none =>
        rw [behind] at last
        exact Option.some.inj last ▸ ends
      | some c =>
        rw [behind] at last
        exact Option.some.inj last ▸ atFront c behind

/-- **The pieces of a list are the parts that stand in it.** -/
theorem mem_pieces_iff : part ∈ pieces cut xs ↔ Stands cut part xs := by
  induction xs using pieces_induction cut with
  | whole xs free => rw [pieces_whole free, List.mem_singleton, stands_whole_iff free]
  | goesOn first b rest free ends hyp =>
    rw [pieces_cut free ends, List.mem_cons, stands_cut_iff free ends, hyp]

/-- A part that is not empty, with nothing but separators before it. -/
structure StandsFirst (cut : α → Bool) (part xs : List α) : Prop where
  some : part ≠ []
  free : ∀ a ∈ part, cut a = false
  reaches : ∃ before after, xs = before ++ part ++ after ∧
    (∀ a ∈ before, cut a = true) ∧ ∀ a ∈ after.head?, cut a = true

/-- A list without separators comes first itself, unless it is empty. -/
theorem standsFirst_whole_iff (free : ∀ a ∈ xs, cut a = false) :
    StandsFirst cut part xs ↔ part ≠ [] ∧ part = xs := by
  constructor
  · rintro ⟨some, freePart, before, after, same, cuts, ends⟩
    refine ⟨some, (stands_whole_iff free).1 ⟨freePart, before, after, same, fun a last => ?_, ends⟩⟩
    exact cuts a (List.mem_of_getLast? last)
  · rintro ⟨some, rfl⟩
    exact ⟨some, free, [], [], by simp, by simp, by simp⟩

/-- The first piece comes first, unless it is empty. -/
theorem standsFirst_cut_iff (some : first ≠ []) (free : ∀ a ∈ first, cut a = false)
    (ends : cut b = true) : StandsFirst cut part (first ++ b :: rest) ↔ part = first := by
  constructor
  · rintro ⟨_, freePart, before, after, same, cuts, atBack⟩
    have front : before = [] := by
      obtain ⟨a, first, rfl⟩ := List.exists_cons_of_ne_nil some
      cases before with
      | nil => rfl
      | cons c before =>
        rw [List.append_assoc] at same
        obtain ⟨rfl, _⟩ := List.cons.inj same
        have notCut := free a List.mem_cons_self
        rw [cuts a List.mem_cons_self] at notCut
        cases notCut
    rw [front, List.nil_append] at same
    exact eq_of_append_cut freePart free ends atBack same
  · rintro rfl
    exact ⟨some, free, [], b :: rest, by simp, by simp, fun a here => Option.some.inj here ▸ ends⟩

/-- A separator at the front does not count. -/
theorem standsFirst_cons_iff (ends : cut b = true) :
    StandsFirst cut part (b :: rest) ↔ StandsFirst cut part rest := by
  constructor
  · rintro ⟨some, free, before, after, same, cuts, atBack⟩
    refine ⟨some, free, ?_⟩
    cases before with
    | nil =>
      obtain ⟨a, part, rfl⟩ := List.exists_cons_of_ne_nil some
      obtain ⟨rfl, _⟩ := List.cons.inj same
      have notCut := free b List.mem_cons_self
      rw [ends] at notCut
      cases notCut
    | cons c before =>
      obtain ⟨_, behind⟩ := List.cons.inj same
      exact ⟨before, after, behind, fun a here => cuts a (List.mem_cons_of_mem c here), atBack⟩
  · rintro ⟨some, free, before, after, rfl, cuts, atBack⟩
    exact ⟨some, free, b :: before, after, rfl, List.forall_mem_cons.2 ⟨ends, cuts⟩, atBack⟩

/-- **The first piece that is not empty is the part that comes first.** -/
theorem find?_pieces_iff :
    (pieces cut xs).find? (fun piece => !piece.isEmpty) = some part ↔ StandsFirst cut part xs := by
  induction xs using pieces_induction cut with
  | whole xs free =>
    rw [pieces_whole free, standsFirst_whole_iff free]
    cases xs with
    | nil => simp
    | cons a rest =>
      rw [List.find?_cons_of_pos rfl, Option.some.injEq]
      exact ⟨fun same => ⟨same ▸ List.cons_ne_nil a rest, same.symm⟩, fun here => here.2.symm⟩
  | goesOn first b rest free ends hyp =>
    rw [pieces_cut free ends]
    cases first with
    | nil => rw [List.find?_cons_of_neg (by simp), hyp, List.nil_append, standsFirst_cons_iff ends]
    | cons a first =>
      rw [List.find?_cons_of_pos rfl, Option.some.injEq,
        standsFirst_cut_iff (List.cons_ne_nil a first) free ends, eq_comm]

end Text

namespace ModulePath

/-- What stands between the names of a path. -/
def Separator (c : Char) : Prop :=
  c = ':' ∨ c = '/'

/-- **A name of a path**: it is not empty, has no separators, and reaches to a separator or to an end
of the path on both sides. -/
structure HasName (path name : String) : Prop where
  some : name ≠ ""
  free : ∀ c ∈ name.toList, ¬ Separator c
  reaches : ∃ before after, path.toList = before ++ name.toList ++ after ∧
    (∀ c ∈ before.getLast?, Separator c) ∧ ∀ c ∈ after.head?, Separator c

/-- **The first name of a path**: nothing but separators comes before it. -/
structure FirstName (path name : String) : Prop where
  some : name ≠ ""
  free : ∀ c ∈ name.toList, ¬ Separator c
  reaches : ∃ before after, path.toList = before ++ name.toList ++ after ∧
    (∀ c ∈ before, Separator c) ∧ ∀ c ∈ after.head?, Separator c

/-- A module of a crate that comes with the toolchain. -/
def Standard (path : String) : Prop :=
  ∃ crate ∈ standardCrates, FirstName path crate

/-- A module that is plumbing by one of its names, or one that supports the runtime or lies below such
a one. -/
def Internal (path : String) : Prop :=
  (∃ name ∈ internalNames, HasName path name) ∨
    ∃ top ∈ runtimeModules, path = top ∨ (top ++ "::").toList <+: path.toList

variable {path name : String}

theorem separator_iff {c : Char} : (c == ':' || c == '/') = true ↔ Separator c := by
  simp [Separator]

theorem not_separator_iff {c : Char} : (c == ':' || c == '/') = false ↔ ¬ Separator c := by
  rw [← separator_iff, Bool.not_eq_true]

/-- The names that a path is cut into are its names. -/
theorem mem_names_iff : name ∈ names path ↔ HasName path name := by
  have piece : name ∈ Text.split (fun c => c == ':' || c == '/') path ↔
      Text.Stands (fun c => c == ':' || c == '/') name.toList path.toList := by
    rw [Text.split, ← Text.mem_pieces_iff, List.mem_map]
    constructor
    · rintro ⟨part, here, rfl⟩
      rwa [String.toList_ofList]
    · exact fun here => ⟨_, here, String.ofList_toList⟩
  rw [names, Text.words, List.mem_filter, piece, decide_eq_true_eq]
  constructor
  · rintro ⟨⟨free, reaches⟩, some⟩
    simp only [separator_iff, not_separator_iff] at free reaches
    exact ⟨some, free, reaches⟩
  · rintro ⟨some, free, reaches⟩
    refine ⟨⟨?_, ?_⟩, some⟩
    · simpa only [not_separator_iff] using free
    · simpa only [separator_iff] using reaches

/-- The first of them is its first name. -/
theorem head?_names_iff : (names path).head? = some name ↔ FirstName path name := by
  have piece : (names path).head? = some name ↔
      Text.StandsFirst (fun c => c == ':' || c == '/') name.toList path.toList := by
    rw [← Text.find?_pieces_iff, names, Text.words, Text.split, List.head?_filter, List.find?_map]
    have test : ((fun s : String => decide (s ≠ "")) ∘ String.ofList) =
        fun piece => !piece.isEmpty := by
      funext piece
      cases piece <;> simp
    rw [test, Option.map_eq_some_iff]
    constructor
    · rintro ⟨part, found, rfl⟩
      rwa [String.toList_ofList]
    · exact fun found => ⟨_, found, String.ofList_toList⟩
  rw [piece]
  constructor
  · rintro ⟨some, free, reaches⟩
    simp only [separator_iff, not_separator_iff] at free reaches
    exact ⟨fun empty => some (by rw [empty]; rfl), free, reaches⟩
  · rintro ⟨some, free, reaches⟩
    refine ⟨fun empty => some (String.toList_inj.1 empty), ?_, ?_⟩
    · simpa only [not_separator_iff] using free
    · simpa only [separator_iff] using reaches

/-- **Modules of the platform's library.** -/
theorem isStandard_iff : isStandard path = true ↔ Standard path := by
  rw [isStandard, Option.any_eq_true]
  constructor
  · rintro ⟨crate, first, known⟩
    exact ⟨crate, List.contains_iff_mem.1 known, head?_names_iff.1 first⟩
  · rintro ⟨crate, known, first⟩
    exact ⟨crate, head?_names_iff.2 first, List.contains_iff_mem.2 known⟩

/-- **Modules that are plumbing.** -/
theorem isInternal_iff : isInternal path = true ↔ Internal path := by
  rw [isInternal, Bool.or_eq_true, List.any_eq_true, List.any_eq_true]
  refine or_congr ?_ (exists_congr fun top => and_congr_right fun _ => ?_)
  · simp only [List.contains_iff_mem, mem_names_iff]
    exact exists_congr fun name => and_comm
  · rw [isWithin, Bool.or_eq_true, beq_iff_eq, Text.startsWith, List.isPrefixOf_iff_prefix]

end ModulePath

end CallGraph
