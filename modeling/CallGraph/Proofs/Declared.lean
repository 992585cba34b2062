import CallGraph.Program.Index
import Mathlib.Data.List.Basic

/-!
**The definitions of a program are those that its sources declare.**

The theory of `Facts`. A text is a tree of items; those that count are reached through the modules
that are not switched off, and each declares its functions.

* `Stands` — the items of a text, each with the module that it stands in;
* `Declares` — the definitions that an item declares, `mem_definitions_facts`;
* `Program.Carried` — the items of all sources of a program, `Program.exists_definition?_iff`;
* `exists_name_of_mem_sites`, `colon_mem_functionId` — what methods that are called and definitions
  are known by.
-/

namespace CallGraph.Source

/-- **An item that counts**: the item itself, or one in a module, in a module that is not switched
off. -/
inductive Stands (on : Features) : String → Item → String → Item → Prop
  | here {modulePath : String} {i : Item} : Stands on modulePath i modulePath i
  | inside {modulePath within : String} {attributes : List Attribute} {name : Name}
      {items : List Item} {i j : Item} (kept : on.keeps attributes = true) (listed : i ∈ items)
      (below : Stands on (ModulePath.child modulePath name.text) i within j) :
      Stands on modulePath (.submodule attributes name (some items)) within j

/-- What the methods of a type belong to, perhaps those that a trait asks for. -/
def typeOwner (type : Name) (ofTrait : Option TypeName) : Owner where
  name := type.text
  ofTrait := (ofTrait.bind (·.name)).map (·.text)

/-- What the default methods of a trait belong to. -/
def traitOwner (name : Name) : Owner where
  name := name.text
  isDefault := true

/-- **The definitions that an item in a module declares.** -/
inductive Declares (o : Origin) (modulePath : String) : Item → Definition → Prop
  | function {f : Function Code} (kept : o.on.keeps f.attributes = true) :
      Declares o modulePath (.function f) (define o modulePath none f.isPublic f)
  | method {attributes : List Attribute} {target : TypeName} {ofTrait : Option TypeName}
      {methods : List (Function Code)} {type : Name} {f : Function Code}
      (kept : o.on.keeps attributes = true) (named : target.name = some type)
      (listed : f ∈ methods) (own : o.on.keeps f.attributes = true) :
      Declares o modulePath (.implementation attributes target ofTrait methods)
        (define o modulePath (some (typeOwner type ofTrait))
          ((typeOwner type ofTrait).ofTrait.isSome || f.isPublic) f)
  | default {attributes : List Attribute} {isPublic : Bool} {name : Name}
      {methods : List (Function Code)} {f : Function Code} (kept : o.on.keeps attributes = true)
      (listed : f ∈ methods) (own : o.on.keeps f.attributes = true) :
      Declares o modulePath (.trait attributes isPublic name methods)
        (define o modulePath (some (traitOwner name)) isPublic f)

variable {o : Origin} {modulePath : String} {d : Definition}

theorem mem_defineAll {owner : Owner} {exported : Function Code → Bool}
    {methods : List (Function Code)} :
    d ∈ defineAll o modulePath owner exported methods ↔ ∃ f ∈ methods,
      o.on.keeps f.attributes = true ∧ d = define o modulePath (some owner) (exported f) f := by
  simp only [defineAll, List.mem_map, List.mem_filter, and_assoc, eq_comm]

/-! ### One item -/

theorem declares_function_iff {f : Function Code} :
    d ∈ ((Item.function f).facts o modulePath).definitions ↔
      Declares o modulePath (.function f) d := by
  rw [Item.facts]
  constructor
  · intro here
    split at here
    · rename_i kept
      cases List.mem_singleton.1 here
      exact .function kept
    · cases here
  · rintro ⟨kept⟩
    rw [if_pos kept]
    exact List.mem_singleton_self _

theorem declares_implementation_iff {attributes : List Attribute} {target : TypeName}
    {ofTrait : Option TypeName} {methods : List (Function Code)} :
    d ∈ ((Item.implementation attributes target ofTrait methods).facts o modulePath).definitions ↔
      Declares o modulePath (.implementation attributes target ofTrait methods) d := by
  rw [Item.facts, implementationFacts]
  constructor
  · intro here
    split at here
    · rename_i kept
      split at here
      · cases here
      · rename_i type named
        obtain ⟨f, listed, own, rfl⟩ := mem_defineAll.1 here
        exact .method kept named listed own
    · cases here
  · intro declares
    cases declares with
    | method kept named listed own =>
      rw [if_pos kept, named]
      exact mem_defineAll.2 ⟨_, listed, own, rfl⟩

theorem declares_trait_iff {attributes : List Attribute} {isPublic : Bool} {name : Name}
    {methods : List (Function Code)} :
    d ∈ ((Item.trait attributes isPublic name methods).facts o modulePath).definitions ↔
      Declares o modulePath (.trait attributes isPublic name methods) d := by
  rw [Item.facts]
  constructor
  · intro here
    split at here
    · rename_i kept
      obtain ⟨f, listed, own, rfl⟩ := mem_defineAll.1 here
      exact .default kept listed own
    · cases here
  · intro declares
    cases declares with
    | default kept listed own =>
      rw [if_pos kept]
      exact mem_defineAll.2 ⟨_, listed, own, rfl⟩

/-- In an item that is no module there is nothing but itself. -/
theorem exists_stands_iff {i : Item} (leaf : ∀ attributes name items,
    i ≠ .submodule attributes name (some items)) :
    (∃ within j, Stands o.on modulePath i within j ∧ Declares o within j d) ↔
      Declares o modulePath i d := by
  constructor
  · rintro ⟨within, j, stands, declares⟩
    cases stands with
    | here => exact declares
    | inside _ _ _ => exact absurd rfl (leaf _ _ _)
  · exact fun declares => ⟨modulePath, i, .here, declares⟩

/-! ### All items -/

mutual

/-- **The definitions of an item are those that it declares, or an item in it.** -/
theorem mem_definitions_facts (o : Origin) (d : Definition) (modulePath : String) (i : Item) :
    d ∈ (i.facts o modulePath).definitions ↔
      ∃ within j, Stands o.on modulePath i within j ∧ Declares o within j d := by
  match i with
  | .function _ => rw [exists_stands_iff (by simp), declares_function_iff]
  | .implementation _ _ _ _ => rw [exists_stands_iff (by simp), declares_implementation_iff]
  | .trait _ _ _ _ => rw [exists_stands_iff (by simp), declares_trait_iff]
  | .submodule _ _ none =>
    rw [exists_stands_iff (by simp), Item.facts]
    exact ⟨nofun, nofun⟩
  | .imports _ _ =>
    rw [exists_stands_iff (by simp), Item.facts]
    constructor
    · intro here
      split at here <;> cases here
    · nofun
  | .other =>
    rw [exists_stands_iff (by simp), Item.facts]
    exact ⟨nofun, nofun⟩
  | .submodule attributes name (some items) =>
    rw [Item.facts]
    constructor
    · intro here
      split at here
      · rename_i kept
        obtain ⟨i, listed, within, j, stands, declares⟩ :=
          (mem_definitions_listFacts o d _ items).1 here
        exact ⟨within, j, .inside kept listed stands, declares⟩
      · cases here
    · rintro ⟨within, j, stands, declares⟩
      cases stands with
      | here => cases declares
      | inside kept listed below =>
        rw [if_pos kept]
        exact (mem_definitions_listFacts o d _ items).2 ⟨_, listed, within, j, below, declares⟩

/-- The definitions of several items. -/
theorem mem_definitions_listFacts (o : Origin) (d : Definition) (modulePath : String)
    (items : List Item) : d ∈ (Item.listFacts o modulePath items).definitions ↔
      ∃ i ∈ items, ∃ within j, Stands o.on modulePath i within j ∧ Declares o within j d := by
  match items with
  | [] => exact ⟨nofun, fun ⟨_, here, _⟩ => absurd here List.not_mem_nil⟩
  | i :: rest =>
    rw [Item.listFacts]
    show d ∈ (i.facts o modulePath).definitions ++ (Item.listFacts o modulePath rest).definitions ↔ _
    rw [List.mem_append, mem_definitions_facts, mem_definitions_listFacts,
      List.exists_mem_cons_iff]

end

/-- The definitions of a whole text. -/
theorem mem_definitions_tree {t : SourceTree} : d ∈ (t.facts o modulePath).definitions ↔
    o.on.keeps t.attributes = true ∧
      ∃ i ∈ t.items, ∃ within j, Stands o.on modulePath i within j ∧ Declares o within j d := by
  rw [SourceTree.facts]
  split
  · rename_i kept
    rw [mem_definitions_listFacts, and_iff_right kept]
  · rename_i off
    exact ⟨nofun, fun ⟨kept, _⟩ => absurd kept off⟩

/-- The definitions of several sources, one after the other. -/
theorem definitions_concat (parts : List Facts) :
    (Facts.concat parts).definitions = parts.flatMap (·.definitions) := by
  suffices all : ∀ before : Facts, (parts.foldl (· ++ ·) before).definitions =
      before.definitions ++ parts.flatMap (·.definitions) by
    exact all {}
  induction parts with
  | nil => exact fun before => (List.append_nil _).symm
  | cons p rest hyp =>
    intro before
    rw [List.foldl_cons, hyp, List.flatMap_cons, ← List.append_assoc]
    rfl

theorem mem_definitions_concat {parts : List Facts} :
    d ∈ (Facts.concat parts).definitions ↔ ∃ p ∈ parts, d ∈ p.definitions := by
  rw [definitions_concat, List.mem_flatMap]

/-! ### What definitions are known by -/

/-- A path that is called or handed over calls no method. -/
theorem method_notMem_path {name : String} {onSelf : Bool} {line : Nat} (c : Code) :
    ⟨.method name onSelf, line⟩ ∉ c.called ∧ ⟨.method name onSelf, line⟩ ∉ c.handedOver := by
  constructor
  · unfold Code.called
    split
    · split <;> simp
    · exact List.not_mem_nil
  · unfold Code.handedOver
    split
    · split <;> simp
    · exact List.not_mem_nil

mutual

/-- **A method that is called is known by a name of the source.** -/
theorem exists_name_of_mem_sites {name : String} {onSelf : Bool} {line : Nat} (c : Code)
    (here : ⟨.method name onSelf, line⟩ ∈ c.sites) : ∃ n : Name, name = n.text := by
  match c with
  | .path path parts _ =>
    rw [Code.sites] at here
    exact exists_name_of_mem_listSites parts here
  | .call attributes callee arguments =>
    rw [Code.sites] at here
    simp only [List.mem_append, List.mem_flatMap] at here
    rcases here with (((here | ⟨c, _, here⟩) | here) | here) | here
    · exact absurd here (method_notMem_path callee).1
    · exact absurd here (method_notMem_path c).2
    · exact exists_name_of_mem_listSites attributes here
    · exact exists_name_of_mem_sites callee here
    · exact exists_name_of_mem_listSites arguments here
  | .method attributes receiver called _ generics arguments =>
    rw [Code.sites] at here
    simp only [List.mem_append, List.mem_cons, List.mem_flatMap] at here
    rcases here with ((((here | ⟨c, _, here⟩) | here) | here) | here) | here
    · cases here
      exact ⟨called, rfl⟩
    · exact absurd here (method_notMem_path c).2
    · exact exists_name_of_mem_listSites attributes here
    · exact exists_name_of_mem_sites receiver here
    · exact exists_name_of_mem_listSites generics here
    · exact exists_name_of_mem_listSites arguments here
  | .expansion _ _ arguments =>
    rw [Code.sites, List.mem_cons] at here
    rcases here with here | here
    · cases here
    · exact exists_name_of_mem_listSites arguments here
  | .record _ parts | .other parts =>
    rw [Code.sites] at here
    exact exists_name_of_mem_listSites parts here
  | .item _ =>
    rw [Code.sites] at here
    exact absurd here List.not_mem_nil

theorem exists_name_of_mem_listSites {name : String} {onSelf : Bool} {line : Nat}
    (cs : List Code) (here : ⟨.method name onSelf, line⟩ ∈ Code.listSites cs) :
    ∃ n : Name, name = n.text := by
  match cs with
  | [] =>
    rw [Code.listSites] at here
    exact absurd here List.not_mem_nil
  | c :: rest =>
    rw [Code.listSites, List.mem_append] at here
    rcases here with here | here
    · exact exists_name_of_mem_sites c here
    · exact exists_name_of_mem_listSites rest here

end

/-- Every definition is a function in a module. -/
theorem Declares.exists_define {i : Item} (declares : Declares o modulePath i d) :
    ∃ owner exported f, d = define o modulePath owner exported f := by
  cases declares with
  | function _ => exact ⟨_, _, _, rfl⟩
  | method _ _ _ _ => exact ⟨_, _, _, rfl⟩
  | default _ _ _ => exact ⟨_, _, _, rfl⟩

/-- **The id of a definition has its module in front of it**, and a double colon after that. -/
theorem colon_mem_functionId (modulePath name : String) (owner : Option Owner) :
    ':' ∈ (functionId modulePath name owner).toList := by
  unfold functionId ModulePath.child
  split
  · simp
  · split <;> simp

end CallGraph.Source

namespace CallGraph.Program

open Source

variable {sources : List SourceFile} {on : Features} {d : Definition}

/-- **An item that counts in the sources of a program**: the file that it is in, and the module that
it stands in. -/
inductive Carried (sources : List SourceFile) (on : Features) : String → String → Item → Prop
  | mk {s : SourceFile} {t : SourceTree} {i j : Item} {within : String} (listed : s ∈ sources)
      (read : SourceTree.ofText? s.content = some t) (kept : on.keeps t.attributes = true)
      (top : i ∈ t.items) (stands : Stands on s.modulePath i within j) :
      Carried sources on s.path within j

/-- **The definitions of a program are those that an item in its sources declares.** -/
theorem exists_definition?_iff :
    (∃ n, (Index.ofSources sources on).definition? n = some d) ↔
      ∃ file within i, Carried sources on file within i ∧ Declares ⟨file, on⟩ within i d := by
  have found : (∃ n, (Index.ofSources sources on).definition? n = some d) ↔
      d ∈ (Facts.concat (sources.filterMap fun s =>
        Facts.ofText? { file := s.path, on := on } s.modulePath s.content)).definitions := by
    rw [← List.mem_toArray, Array.mem_iff_getElem?]
    rfl
  rw [found, mem_definitions_concat]
  simp only [List.mem_filterMap, Facts.ofText?, Option.map_eq_some_iff]
  constructor
  · rintro ⟨_, ⟨s, listed, t, read, rfl⟩, here⟩
    obtain ⟨kept, i, top, within, j, stands, declares⟩ := mem_definitions_tree.1 here
    exact ⟨s.path, within, j, ⟨listed, read, kept, top, stands⟩, declares⟩
  · rintro ⟨_, within, j, @⟨s, t, i, _, _, listed, read, kept, top, stands⟩, declares⟩
    exact ⟨_, ⟨s, listed, t, read, rfl⟩,
      mem_definitions_tree.2 ⟨kept, i, top, within, j, stands, declares⟩⟩

/-- A definition of a program is a function in a module. -/
theorem exists_define_of_definition? {n : Nat}
    (found : (Index.ofSources sources on).definition? n = some d) :
    ∃ o modulePath owner exported f, d = define o modulePath owner exported f := by
  obtain ⟨file, within, i, _, declares⟩ := exists_definition?_iff.1 ⟨n, found⟩
  exact ⟨_, _, declares.exists_define⟩

end CallGraph.Program
