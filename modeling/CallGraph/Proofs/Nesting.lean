import CallGraph.Source.Facts
import Mathlib.Data.List.Forall2

/-!
**Functions inside the bodies of others.**

Items may stand inside a body, and hold functions of their own. A walk over the items of a text never
enters a body, and a walk over the code of a body never enters an item: what is written there is
part of no definition.

* `Written`, `SourceTree.written` — all functions of a text that are not switched off, however deep
  they are written;
* `Code.le_depth` — what is written in a body is inside of it;
* `definitions_written` — the definitions are the functions outside of all bodies;
* `nested_function_is_lost` — a text with a function that is none of them.
-/

namespace CallGraph.Source

/-- **A function where it is written.** -/
structure Written where
  /-- The number of bodies that it is inside of. -/
  depth : Nat
  /-- Whether what it belongs to has a name, if it is a method. -/
  owned : Bool
  function : Function Code

namespace Written

/-- Whether a function is outside of all bodies, and no method of a type without a name. -/
def isTop (w : Written) : Bool :=
  w.depth == 0 && w.owned

end Written

/-! ### All functions of a text -/

mutual

/-- The functions in code that is inside of `depth` bodies. -/
def Code.written (on : Features) (depth : Nat) : Code → List Written
  | .path _ parts _ => Code.listWritten on depth parts
  | .call attributes callee arguments =>
    Code.listWritten on depth attributes ++ callee.written on depth ++
      Code.listWritten on depth arguments
  | .method attributes receiver _ _ generics arguments =>
    Code.listWritten on depth attributes ++ receiver.written on depth ++
      Code.listWritten on depth generics ++ Code.listWritten on depth arguments
  | .expansion _ _ arguments => Code.listWritten on depth arguments
  | .record _ parts => Code.listWritten on depth parts
  | .item i => i.written on depth
  | .other parts => Code.listWritten on depth parts

/-- The functions in several pieces of code. -/
def Code.listWritten (on : Features) (depth : Nat) : List Code → List Written
  | [] => []
  | c :: rest => c.written on depth ++ Code.listWritten on depth rest

/-- **The functions of an item** that is inside of `depth` bodies. What is switched off is left
out. -/
def Item.written (on : Features) (depth : Nat) : Item → List Written
  | .function f => Function.written on depth true f
  | .implementation attributes target _ methods =>
    if on.keeps attributes then Function.listWritten on depth target.name.isSome methods else []
  | .trait attributes _ _ methods =>
    if on.keeps attributes then Function.listWritten on depth true methods else []
  | .submodule attributes _ (some items) =>
    if on.keeps attributes then Item.listWritten on depth items else []
  | .submodule _ _ none => []
  | .imports _ _ => []
  | .other => []

/-- The functions of several items. -/
def Item.listWritten (on : Features) (depth : Nat) : List Item → List Written
  | [] => []
  | i :: rest => i.written on depth ++ Item.listWritten on depth rest

/-- A function with those in its body. -/
def Function.written (on : Features) (depth : Nat) (owned : Bool) : Function Code → List Written
  | ⟨attributes, isPublic, name, line, body⟩ =>
    if on.keeps attributes then
      ⟨depth, owned, ⟨attributes, isPublic, name, line, body⟩⟩ ::
        Code.listWritten on (depth + 1) body
    else []

/-- Several functions with those in their bodies. -/
def Function.listWritten (on : Features) (depth : Nat) (owned : Bool) :
    List (Function Code) → List Written
  | [] => []
  | f :: rest => Function.written on depth owned f ++ Function.listWritten on depth owned rest

end

/-- **All functions of a text** that are not switched off, however deep they are written. -/
def SourceTree.written (on : Features) (t : SourceTree) : List Written :=
  if on.keeps t.attributes then Item.listWritten on 0 t.items else []

/-! ### Functions in bodies -/

variable {on : Features} {w : Written}

mutual

/-- What is written in code is inside of as many bodies as the code. -/
theorem Code.le_depth (depth : Nat) (c : Code) (here : w ∈ c.written on depth) :
    depth ≤ w.depth := by
  match c with
  | .path _ parts _ | .expansion _ _ parts | .record _ parts | .other parts =>
    rw [Code.written] at here
    exact Code.le_depth_of_mem_list depth parts here
  | .call attributes callee arguments =>
    simp only [Code.written, List.mem_append] at here
    rcases here with (here | here) | here
    · exact Code.le_depth_of_mem_list depth attributes here
    · exact Code.le_depth depth callee here
    · exact Code.le_depth_of_mem_list depth arguments here
  | .method attributes receiver _ _ generics arguments =>
    simp only [Code.written, List.mem_append] at here
    rcases here with ((here | here) | here) | here
    · exact Code.le_depth_of_mem_list depth attributes here
    · exact Code.le_depth depth receiver here
    · exact Code.le_depth_of_mem_list depth generics here
    · exact Code.le_depth_of_mem_list depth arguments here
  | .item i =>
    rw [Code.written] at here
    exact Item.le_depth depth i here

theorem Code.le_depth_of_mem_list (depth : Nat) (cs : List Code)
    (here : w ∈ Code.listWritten on depth cs) : depth ≤ w.depth := by
  match cs with
  | [] =>
    rw [Code.listWritten] at here
    exact absurd here List.not_mem_nil
  | c :: rest =>
    rw [Code.listWritten, List.mem_append] at here
    rcases here with here | here
    · exact Code.le_depth depth c here
    · exact Code.le_depth_of_mem_list depth rest here

theorem Item.le_depth (depth : Nat) (i : Item) (here : w ∈ i.written on depth) :
    depth ≤ w.depth := by
  match i with
  | .function f =>
    rw [Item.written] at here
    exact Function.le_depth depth true f here
  | .implementation _ _ _ methods | .trait _ _ _ methods =>
    rw [Item.written] at here
    split at here
    · exact Function.le_depth_of_mem_list depth _ methods here
    · exact absurd here List.not_mem_nil
  | .submodule _ _ (some items) =>
    rw [Item.written] at here
    split at here
    · exact Item.le_depth_of_mem_list depth items here
    · exact absurd here List.not_mem_nil
  | .submodule _ _ none | .imports _ _ | .other =>
    rw [Item.written] at here
    exact absurd here List.not_mem_nil

theorem Item.le_depth_of_mem_list (depth : Nat) (items : List Item)
    (here : w ∈ Item.listWritten on depth items) : depth ≤ w.depth := by
  match items with
  | [] =>
    rw [Item.listWritten] at here
    exact absurd here List.not_mem_nil
  | i :: rest =>
    rw [Item.listWritten, List.mem_append] at here
    rcases here with here | here
    · exact Item.le_depth depth i here
    · exact Item.le_depth_of_mem_list depth rest here

theorem Function.le_depth (depth : Nat) (owned : Bool) (f : Function Code)
    (here : w ∈ Function.written on depth owned f) : depth ≤ w.depth := by
  match f with
  | ⟨_, _, _, _, body⟩ =>
    rw [Function.written] at here
    split at here
    · rcases List.mem_cons.1 here with rfl | inside
      · exact Nat.le_refl _
      · exact Nat.le_of_succ_le (Code.le_depth_of_mem_list (depth + 1) body inside)
    · exact absurd here List.not_mem_nil

theorem Function.le_depth_of_mem_list (depth : Nat) (owned : Bool) (fs : List (Function Code))
    (here : w ∈ Function.listWritten on depth owned fs) : depth ≤ w.depth := by
  match fs with
  | [] =>
    rw [Function.listWritten] at here
    exact absurd here List.not_mem_nil
  | f :: rest =>
    rw [Function.listWritten, List.mem_append] at here
    rcases here with here | here
    · exact Function.le_depth depth owned f here
    · exact Function.le_depth_of_mem_list depth owned rest here

end

/-- Nothing in a body is outside of all bodies. -/
theorem filter_isTop_body (body : List Code) :
    (Code.listWritten on 1 body).filter Written.isTop = [] := by
  refine List.filter_eq_nil_iff.2 fun w here top => ?_
  have deep : 1 ≤ w.depth := Code.le_depth_of_mem_list 1 body here
  simp only [Written.isTop, Bool.and_eq_true, beq_iff_eq] at top
  omega

/-! ### Definitions -/

/-- A definition of a function. -/
def Definition.IsOf (o : Origin) (d : Definition) (w : Written) : Prop :=
  ∃ modulePath owner exported, d = define o modulePath owner exported w.function

variable {o : Origin} {modulePath : String}

/-- Of a function and those in its body, at most itself is outside of all bodies. -/
theorem filter_isTop_function (owned : Bool) (f : Function Code) :
    (Function.written on 0 owned f).filter Written.isTop =
      if on.keeps f.attributes && owned then [⟨0, owned, f⟩] else [] := by
  obtain ⟨attributes, isPublic, name, line, body⟩ := f
  rw [Function.written]
  dsimp only
  by_cases kept : on.keeps attributes = true
  · rw [if_pos kept, kept, Bool.true_and]
    cases owned with
    | false =>
      rw [List.filter_cons_of_neg (by simp [Written.isTop]), filter_isTop_body]
      rfl
    | true =>
      rw [List.filter_cons_of_pos (by simp [Written.isTop]), filter_isTop_body]
      rfl
  · rw [if_neg kept, Bool.eq_false_iff.2 kept]
    rfl

/-- Methods of a type without a name are not outside of all bodies. -/
theorem filter_isTop_nameless (fs : List (Function Code)) :
    (Function.listWritten on 0 false fs).filter Written.isTop = [] := by
  induction fs with
  | nil => rw [Function.listWritten, List.filter_nil]
  | cons f rest hyp =>
    rw [Function.listWritten, List.filter_append, filter_isTop_function, hyp]
    simp

/-- The definitions of methods are those of the functions outside of all bodies. -/
theorem defineAll_written (owner : Owner) (exported : Function Code → Bool)
    (fs : List (Function Code)) :
    List.Forall₂ (Definition.IsOf o) (defineAll o modulePath owner exported fs)
      ((Function.listWritten o.on 0 true fs).filter Written.isTop) := by
  induction fs with
  | nil =>
    rw [Function.listWritten]
    exact .nil
  | cons f rest hyp =>
    rw [Function.listWritten, List.filter_append, filter_isTop_function, Bool.and_true, defineAll,
      List.filter_cons]
    split
    · exact .cons ⟨_, _, _, rfl⟩ hyp
    · exact hyp

mutual

theorem Item.forall₂_definitions (o : Origin) (modulePath : String) (i : Item) :
    List.Forall₂ (Definition.IsOf o) (i.facts o modulePath).definitions
      ((i.written o.on 0).filter Written.isTop) := by
  match i with
  | .function f =>
    rw [Item.facts, Item.written, filter_isTop_function, Bool.and_true]
    split
    · exact .cons ⟨_, _, _, rfl⟩ .nil
    · exact .nil
  | .implementation attributes target ofTrait methods =>
    rw [Item.facts, Item.written]
    split
    · rw [implementationFacts]
      cases target.name with
      | none =>
        rw [Option.isSome_none, filter_isTop_nameless]
        exact .nil
      | some type => exact defineAll_written _ _ methods
    · exact .nil
  | .trait attributes isPublic name methods =>
    rw [Item.facts, Item.written]
    split
    · exact defineAll_written _ _ methods
    · exact .nil
  | .submodule attributes name (some items) =>
    rw [Item.facts, Item.written]
    split
    · exact Item.forall₂_definitions_list o _ items
    · exact .nil
  | .imports attributes tree =>
    rw [Item.facts, Item.written]
    split <;> exact .nil
  | .submodule _ _ none | .other =>
    rw [Item.facts, Item.written]
    exact .nil

theorem Item.forall₂_definitions_list (o : Origin) (modulePath : String) (items : List Item) :
    List.Forall₂ (Definition.IsOf o) (Item.listFacts o modulePath items).definitions
      ((Item.listWritten o.on 0 items).filter Written.isTop) := by
  match items with
  | [] =>
    rw [Item.listFacts, Item.listWritten]
    exact .nil
  | i :: rest =>
    rw [Item.listFacts, Item.listWritten, List.filter_append]
    exact List.rel_append (Item.forall₂_definitions o modulePath i)
      (Item.forall₂_definitions_list o modulePath rest)

end

/-- **The definitions of a text are the functions outside of all bodies**, each with the calls of
its own body, and in order. So there are as many as there are functions exactly if none is written
inside the body of another, or for a type without a name. -/
theorem definitions_written (o : Origin) (modulePath : String) (t : SourceTree) :
    List.Forall₂ (Definition.IsOf o) (t.facts o modulePath).definitions
      ((t.written o.on).filter Written.isTop) ∧
    ((t.facts o modulePath).definitions.length = (t.written o.on).length ↔
      ∀ w ∈ t.written o.on, w.depth = 0 ∧ w.owned = true) := by
  have each : List.Forall₂ (Definition.IsOf o) (t.facts o modulePath).definitions
      ((t.written o.on).filter Written.isTop) := by
    rw [SourceTree.facts, SourceTree.written]
    split
    · exact Item.forall₂_definitions_list o modulePath t.items
    · exact .nil
  refine ⟨each, ?_⟩
  rw [each.length_eq, List.length_filter_eq_length_iff]
  simp only [Written.isTop, Bool.and_eq_true, beq_iff_eq]

/-- A text with a function inside the body of another. -/
def nestedHelper : String :=
  "fn main() \x7b fn helper() \x7b other(); \x7d helper(); \x7d fn other() \x7b\x7d"

/-- **A function inside a body is lost**, and so is its call: the text above has three functions,
and two definitions. -/
theorem nested_function_is_lost :
    ¬∀ (o : Origin) (modulePath text : String) (t : SourceTree),
      SourceTree.ofText? text = some t → ∀ w ∈ t.written o.on, w.owned = true →
        (∃ d ∈ (t.facts o modulePath).definitions, d.name = w.function.name.text) ∧
        ∀ s ∈ Code.listSites w.function.body, ∃ d ∈ (t.facts o modulePath).definitions, s ∈ d.sites := by
  intro all
  have known : (SourceTree.ofText? nestedHelper).map (fun t =>
      ((t.written {}).map fun w => (w.owned, w.function.name.text),
        (t.facts ⟨"src/main.rs", {}⟩ "app").definitions.map (·.name))) =
      some ([(true, "main"), (true, "helper"), (true, "other")], ["main", "other"]) := by
    decide +kernel
  obtain ⟨t, read, same⟩ := Option.map_eq_some_iff.1 known
  rw [Prod.mk.injEq] at same
  obtain ⟨functions, definitions⟩ := same
  obtain ⟨w, here, shape⟩ : ∃ w ∈ t.written {}, (w.owned, w.function.name.text) = (true, "helper") := by
    rw [← List.mem_map, functions]
    decide
  rw [Prod.mk.injEq] at shape
  obtain ⟨⟨d, listed, called⟩, _⟩ :=
    all ⟨"src/main.rs", {}⟩ "app" nestedHelper t read w here shape.1
  have missing : d.name ∈ ["main", "other"] := by
    rw [← definitions]
    exact List.mem_map_of_mem listed
  rw [called, shape.2] at missing
  exact absurd missing (by decide)

end CallGraph.Source
