import CallGraph.Proofs.Assembly
import CallGraph.Proofs.Declared
import CallGraph.Proofs.Labels
import Mathlib.Data.List.Nodup
import Mathlib.Tactic.MkIffOfInductiveProp

/-!
**Which definitions have the same id.**

An id is put together from the module that a function stands in, the last names of the type and the
trait of its block, and its own name. The rest of what a type or a trait is written with is lost: two
blocks for different instances of a trait give their functions the same ids. So do a type and a module
of the same name.

* `Block`, `Title` — what the id of a function is made of, `Title.id_inj` — when two ids are the same;
* `Item.placed`, `Placed.titles`, `Program.titles` — the functions of a program, with their titles;
* `Program.ids_ofSources`, `nodup_ids_iff` — when the ids of all definitions are distinct;
* `Index.OwnNode`, `Builder.analyse_own_nodes` — the nodes of the definitions are then their own;
* `WellNamed`, `two_instances_are_one` — a program that names nothing twice has definitions of one id.
-/

namespace CallGraph.Source

open ModulePath (child)

/-! ### Titles -/

/-- **What a block of methods is called.** Types and traits have nothing but their last names. -/
inductive Block where
  /-- The methods of a type, or the default methods of a trait. -/
  | own (owner : Name)
  /-- The methods of a type that a trait asks for. -/
  | asked (type ofTrait : Name)
  deriving DecidableEq, Repr

/-- **What the id of a function is made of.** -/
inductive Title where
  | function (modulePath : String) (name : Name)
  | method (modulePath : String) (block : Block) (name : Name)
  deriving DecidableEq, Repr

/-- What a block is called, as text. -/
def Block.text : Block → String
  | own owner => owner.text
  | asked type ofTrait => "<" ++ type.text ++ " as " ++ ofTrait.text ++ ">"

namespace Title

/-- The id of the function with a title. -/
def id : Title → String
  | function modulePath name => child modulePath name.text
  | method modulePath block name => child (child modulePath block.text) name.text

/-- **A function that captures a method**: the module that it stands in is called like the block. -/
inductive Captures : Title → Title → Prop
  | mk {modulePath : String} {block : Block} {name : Name} :
      Captures (.function (child modulePath block.text) name) (.method modulePath block name)

end Title

/-- A path is known, and so is what stands below it, if there is no colon in that. -/
theorem child_inj {path path' below below' : String} (free : ':' ∉ below.toList)
    (free' : ':' ∉ below'.toList) :
    child path below = child path' below' ↔ path = path' ∧ below = below' := by
  have read : ∀ path below : String,
      (child path below).toList = (path.toList ++ [':']) ++ ':' :: below.toList := fun path below => by
    simp [child]
  rw [← String.toList_inj, read, read, Text.append_cons_inj_right free free', List.append_left_inj,
    String.toList_inj, String.toList_inj]

theorem Name.text_inj {n m : Name} : n.text = m.text ↔ n = m := by
  obtain ⟨text, plain⟩ := n
  obtain ⟨text', plain'⟩ := m
  rw [Name.mk.injEq]

theorem Name.colon_notMem (n : Name) : ':' ∉ n.text.toList :=
  n.not_mem (by decide)

namespace Block

theorem toList_asked (type ofTrait : Name) : (asked type ofTrait).text.toList =
    ('<' :: type.text.toList) ++ ' ' :: ("as ".toList ++ ofTrait.text.toList ++ ['>']) := by
  simp [text]

theorem colon_notMem (b : Block) : ':' ∉ b.text.toList := by
  cases b with
  | own owner => exact owner.colon_notMem
  | asked type ofTrait =>
    rw [toList_asked]
    simp [type.colon_notMem, ofTrait.colon_notMem]

/-- No type is called like one that a trait asks for something. -/
theorem own_ne_asked (owner type ofTrait : Name) : (own owner).text ≠ (asked type ofTrait).text := by
  intro same
  have here : '<' ∈ (own owner).text.toList := by
    rw [same, toList_asked]
    exact List.mem_cons_self
  exact owner.not_mem (by decide) here

/-- The names of a type and of a trait can be read off. -/
theorem asked_inj {type type' ofTrait ofTrait' : Name} :
    (asked type ofTrait).text = (asked type' ofTrait').text ↔ type = type' ∧ ofTrait = ofTrait' := by
  have noBlank : ∀ n : Name, ' ' ∉ '<' :: n.text.toList := fun n here =>
    n.not_mem (by decide) ((List.mem_cons.1 here).resolve_left (by decide))
  rw [← String.toList_inj, toList_asked, toList_asked,
    Text.append_cons_inj (noBlank type) (noBlank type'), List.append_left_inj, List.append_right_inj,
    List.cons.injEq, and_iff_right rfl, String.toList_inj, String.toList_inj, Name.text_inj,
    Name.text_inj]

theorem text_inj {b b' : Block} : b.text = b'.text ↔ b = b' := by
  cases b with
  | own owner =>
    cases b' with
    | own owner' => rw [text, text, Name.text_inj, own.injEq]
    | asked type ofTrait => exact iff_of_false (own_ne_asked owner type ofTrait) nofun
  | asked type ofTrait =>
    cases b' with
    | own owner => exact iff_of_false (own_ne_asked owner type ofTrait).symm nofun
    | asked type' ofTrait' => rw [asked_inj, asked.injEq]

end Block

namespace Title

variable {s t : Title}

theorem Captures.id_eq (captures : s.Captures t) : s.id = t.id := by
  cases captures
  rfl

/-- **Two functions have the same id** if they have the same title, or if one of them stands in a
module that is called like the block of the other. -/
theorem id_inj : s.id = t.id ↔ s = t ∨ s.Captures t ∨ t.Captures s := by
  have below : ∀ {path path' : String} {n m : Name},
      child path n.text = child path' m.text → path = path' ∧ n = m := fun {_ _ n m} same => by
    rwa [child_inj n.colon_notMem m.colon_notMem, Name.text_inj] at same
  constructor
  · intro same
    cases s with
    | function modulePath n =>
      cases t with
      | function modulePath' n' =>
        obtain ⟨rfl, rfl⟩ := below same
        exact Or.inl rfl
      | method modulePath' block n' =>
        obtain ⟨rfl, rfl⟩ := below same
        exact Or.inr (Or.inl .mk)
    | method modulePath block n =>
      cases t with
      | function modulePath' n' =>
        obtain ⟨rfl, rfl⟩ := below same
        exact Or.inr (Or.inr .mk)
      | method modulePath' block' n' =>
        -- The last colon shows where the name begins, and the one before it where the block does.
        obtain ⟨place, rfl⟩ := below same
        obtain ⟨rfl, called⟩ := (child_inj block.colon_notMem block'.colon_notMem).1 place
        exact Or.inl (Block.text_inj.1 called ▸ rfl)
  · rintro (rfl | captures | captures)
    · rfl
    · exact captures.id_eq
    · exact captures.id_eq.symm

end Title

/-- **Functions that are told apart**: no two have the same title, and none captures another. -/
structure ToldApart (titles : List Title) : Prop where
  distinct : titles.Nodup
  free : ∀ s ∈ titles, ∀ t ∈ titles, ¬s.Captures t

/-- **Ids are distinct if functions are told apart**, and only then. -/
theorem nodup_ids_iff {titles : List Title} : (titles.map Title.id).Nodup ↔ ToldApart titles := by
  constructor
  · intro distinct
    refine ⟨distinct.of_map, fun s inTitles t here captures => ?_⟩
    have same : s = t := List.inj_on_of_nodup_map distinct inTitles here captures.id_eq
    rw [same] at captures
    cases captures
  · intro apart
    refine (List.nodup_map_iff_inj_on apart.distinct).2 fun s inTitles t here same => ?_
    rcases Title.id_inj.1 same with equal | captures | captures
    · exact equal
    · exact absurd captures (apart.free s inTitles t here)
    · exact absurd captures (apart.free t here s inTitles)

/-! ### The functions of a text -/

/-- An item that is no module, with the module that it stands in. -/
structure Placed where
  modulePath : String
  item : Item

mutual

/-- The items that an item in a module holds, or else itself. Modules that are switched off hold
none. -/
def Item.placed (on : Features) (modulePath : String) : Item → List Placed
  | .submodule attributes name (some items) =>
    if on.keeps attributes then Item.listPlaced on (child modulePath name.text) items else []
  | .submodule _ _ none => []
  | .function f => [⟨modulePath, .function f⟩]
  | .implementation attributes target ofTrait methods =>
    [⟨modulePath, .implementation attributes target ofTrait methods⟩]
  | .trait attributes isPublic name methods => [⟨modulePath, .trait attributes isPublic name methods⟩]
  | .imports attributes tree => [⟨modulePath, .imports attributes tree⟩]
  | .other => [⟨modulePath, .other⟩]

/-- The items that several items hold. -/
def Item.listPlaced (on : Features) (modulePath : String) : List Item → List Placed
  | [] => []
  | i :: rest => i.placed on modulePath ++ Item.listPlaced on modulePath rest

end

/-- The items of a text. A text that is switched off has none. -/
def SourceTree.placed (on : Features) (modulePath : String) (t : SourceTree) : List Placed :=
  if on.keeps t.attributes then Item.listPlaced on modulePath t.items else []

/-- The names of the methods that are not switched off. -/
def keptNames (on : Features) (methods : List (Function Code)) : List Name :=
  (methods.filter fun f => on.keeps f.attributes).map (·.name)

/-- What the block of a type is called, perhaps for a trait. -/
def Block.of (type : Name) : Option Name → Block
  | none => own type
  | some ofTrait => asked type ofTrait

/-- **The titles of the functions of an item.** What is switched off has none, and neither have the
methods of a type without a name. -/
def Placed.titles (on : Features) (p : Placed) : List Title :=
  match p.item with
  | .function f => if on.keeps f.attributes then [.function p.modulePath f.name] else []
  | .implementation attributes target ofTrait methods =>
    if on.keeps attributes then
      match target.name with
      | none => []
      | some type =>
        (keptNames on methods).map (.method p.modulePath (.of type (ofTrait.bind (·.name))))
    else []
  | .trait attributes _ name methods =>
    if on.keeps attributes then (keptNames on methods).map (.method p.modulePath (.own name)) else []
  | _ => []

variable {o : Origin} {modulePath : String}

theorem ids_defineAll {owner : Owner} {block : Block} (exported : Function Code → Bool)
    (methods : List (Function Code))
    (called : ∀ n : Name, functionId modulePath n.text (some owner) =
      (Title.method modulePath block n).id) :
    (defineAll o modulePath owner exported methods).map (·.id) =
      ((keptNames o.on methods).map (Title.method modulePath block)).map Title.id := by
  rw [defineAll, keptNames, List.map_map, List.map_map, List.map_map]
  exact List.map_congr_left fun f _ => called f.name

/-- What the methods of a type are known by. -/
theorem functionId_block (type name : Name) (ofTrait : Option Name) :
    functionId modulePath name.text (some { name := type.text, ofTrait := ofTrait.map (·.text) }) =
      (Title.method modulePath (.of type ofTrait) name).id := by
  cases ofTrait with
  | none => rfl
  | some asked => simp [functionId, Title.id, Block.of, Block.text, child, String.append_assoc]

mutual

/-- **The ids of the definitions of an item are those that the titles give.** -/
theorem Item.ids_facts (o : Origin) (modulePath : String) (i : Item) :
    (i.facts o modulePath).definitions.map (·.id) =
      ((i.placed o.on modulePath).flatMap (Placed.titles o.on)).map Title.id := by
  match i with
  | .function f =>
    rw [Item.facts, Item.placed, List.flatMap_singleton, Placed.titles]
    dsimp only
    split <;> rfl
  | .implementation attributes target ofTrait methods =>
    rw [Item.facts, Item.placed, List.flatMap_singleton, Placed.titles, implementationFacts]
    dsimp only
    split
    · cases target.name with
      | none => rfl
      | some type => exact ids_defineAll _ methods fun n => functionId_block type n _
    · rfl
  | .trait attributes isPublic name methods =>
    rw [Item.facts, Item.placed, List.flatMap_singleton, Placed.titles]
    dsimp only
    split
    · exact ids_defineAll _ methods fun n => rfl
    · rfl
  | .submodule attributes name (some items) =>
    rw [Item.facts, Item.placed]
    split
    · exact Item.ids_listFacts o _ items
    · rfl
  | .submodule _ _ none | .other =>
    rw [Item.facts, Item.placed]
    rfl
  | .imports attributes tree =>
    rw [Item.facts, Item.placed]
    split <;> rfl

theorem Item.ids_listFacts (o : Origin) (modulePath : String) (items : List Item) :
    (Item.listFacts o modulePath items).definitions.map (·.id) =
      ((Item.listPlaced o.on modulePath items).flatMap (Placed.titles o.on)).map Title.id := by
  match items with
  | [] =>
    rw [Item.listFacts, Item.listPlaced]
    rfl
  | i :: rest =>
    rw [Item.listFacts, Item.listPlaced, List.flatMap_append, List.map_append,
      ← Item.ids_facts o modulePath i, ← Item.ids_listFacts o modulePath rest]
    exact List.map_append

end

end CallGraph.Source

namespace CallGraph.Program

open Source

/-! ### The ids of a program -/

/-- The items of the sources of a program. -/
def placed (sources : List SourceFile) (on : Features) : List Placed :=
  sources.flatMap fun s =>
    ((SourceTree.ofText? s.content).map (·.placed on s.modulePath)).getD []

/-- **The titles of the functions of a program**, in order. -/
def titles (sources : List SourceFile) (on : Features) : List Title :=
  (placed sources on).flatMap (Placed.titles on)

theorem ids_facts (o : Origin) (modulePath : String) (t : SourceTree) :
    (t.facts o modulePath).definitions.map (·.id) =
      ((t.placed o.on modulePath).flatMap (Placed.titles o.on)).map Title.id := by
  rw [SourceTree.facts, SourceTree.placed]
  split
  · exact Item.ids_listFacts o modulePath t.items
  · rfl

/-- The ids of all definitions. -/
def Index.ids (ix : Index) : List String :=
  ix.definitions.toList.map (·.id)

/-- **The ids of a program are those that the titles give.** -/
theorem ids_ofSources (sources : List SourceFile) (on : Features) :
    (Index.ofSources sources on).ids = (titles sources on).map Title.id := by
  show (Facts.concat _).definitions.map _ = _
  rw [definitions_concat, titles, placed]
  induction sources with
  | nil => rfl
  | cons s rest hyp =>
    rw [List.flatMap_cons, List.flatMap_append, List.map_append, ← hyp, List.filterMap_cons,
      Facts.ofText?]
    cases SourceTree.ofText? s.content with
    | none => rfl
    | some t =>
      rw [Option.map_some, Option.map_some, Option.getD_some, ← ids_facts ⟨s.path, on⟩,
        ← List.map_append, ← List.flatMap_cons]

namespace Index

/-! ### Nodes of their own -/

variable {ix : Index} {algorithm : Algorithm} {g : Graph} {ds : List Definition} {i : Nat}
  {d : Definition}

/-- **A definition with a node of its own**: the node with its number says where it stands, no other
node has its id, and the calls of the node are those of the definition. -/
structure OwnNode (ix : Index) (algorithm : Algorithm) (g : Graph) (i : Nat) (d : Definition) :
    Prop where
  node : g.node? i = some (definitionNode d)
  only : ∀ v < g.nodes.size, g.idOf v = d.id → v = i
  calls : (g.edges.toList.filter (·.caller == i)).map (readEdge g) = ix.callsOf algorithm none d

theorem idOf_of_node (node : g.node? i = some (definitionNode d)) :
    i < g.nodes.size ∧ g.idOf i = d.id := by
  refine ⟨(Array.getElem?_eq_some_iff.1 node).1, ?_⟩
  rw [Graph.idOf, node]
  rfl

/-- Definitions with new ids get nodes, in order. -/
theorem nodes_addDefinitions_of_new (new : (g.ids ++ ds.map (·.id)).Nodup) :
    (addDefinitions g ds).value.nodes.toList = g.nodes.toList ++ ds.map definitionNode := by
  induction ds generalizing g with
  | nil => exact (List.append_nil _).symm
  | cons d rest hyp =>
    have unknown : g.find? (definitionNode d).id = none := Graph.find?_eq_none_iff.2 fun known =>
      List.disjoint_of_nodup_append new known List.mem_cons_self
    have grown :
        (g.ensure (definitionNode d)).1.nodes.toList = g.nodes.toList ++ [definitionNode d] := by
      rw [Graph.ensure, Graph.addNode_of_new unknown]
      exact Array.toList_push
    rw [List.map_cons, List.append_cons, show [d.id] = [definitionNode d].map (·.id) from rfl,
      ← Graph.ids_of_append grown] at new
    rw [List.map_cons, List.append_cons, ← grown]
    exact hyp new

/-- All definitions, in order. -/
theorem filterMap_definition? (ix : Index) :
    (List.range ix.definitions.size).filterMap ix.definition? = ix.definitions.toList := by
  have all : ∀ l : List Definition, (List.range l.length).filterMap (l[·]?) = l := fun l => by
    induction l with
    | nil => rfl
    | cons d rest hyp =>
      rw [List.length_cons, List.range_succ_eq_map, List.filterMap_cons, List.filterMap_map]
      exact congrArg (d :: ·) hyp
  rw [← Array.length_toList]
  conv_rhs => rw [← all ix.definitions.toList]
  exact List.filterMap_congr fun i _ => Array.getElem?_toList.symm

/-- The calls of a definition are those with its id in front. -/
theorem filter_callsOf (distinct : (ds.map (·.id)).Nodup) (listed : d ∈ ds) :
    (ds.flatMap (ix.callsOf algorithm none)).filter (·.1 == d.id) = ix.callsOf algorithm none d := by
  have caller : ∀ c, ∀ call ∈ ix.callsOf algorithm none c, call.1 = c.id := fun c call here => by
    simp only [callsOf, List.mem_flatMap, List.mem_map] at here
    obtain ⟨site, _, t, _, rfl⟩ := here
    rfl
  have others : ∀ cs : List Definition, d.id ∉ cs.map (·.id) →
      (cs.flatMap (ix.callsOf algorithm none)).filter (·.1 == d.id) = [] := fun cs absent => by
    refine List.filter_eq_nil_iff.2 fun call here same => ?_
    obtain ⟨c, inList, calls⟩ := List.mem_flatMap.1 here
    exact absent (List.mem_map.2 ⟨c, inList, (caller c call calls).symm.trans (eq_of_beq same)⟩)
  -- No definition in front of this one has its id, and none behind it.
  obtain ⟨before, after, rfl⟩ := List.append_of_mem listed
  rw [List.map_append, List.map_cons] at distinct
  have notBefore : d.id ∉ before.map (·.id) := fun here =>
    List.disjoint_of_nodup_append distinct here List.mem_cons_self
  have notAfter : d.id ∉ after.map (·.id) :=
    (List.nodup_cons.1 (List.nodup_append.1 distinct).2.1).1
  rw [List.flatMap_append, List.flatMap_cons, List.filter_append, List.filter_append,
    others _ notBefore, others _ notAfter, List.append_nil, List.nil_append, List.filter_eq_self]
  exact fun call here => beq_iff_eq.2 (caller d call here)

/-- **Definitions with distinct ids have nodes of their own.** -/
theorem ownNode_of_nodup (distinct : (ds.map (·.id)).Nodup)
    (assembled : Assembled (addDefinitions .empty ds).value (ds.flatMap (ix.callsOf algorithm none)) g)
    (found : ds[i]? = some d) : ix.OwnNode algorithm g i d := by
  have there : (addDefinitions .empty ds).value.node? i = some (definitionNode d) := by
    rw [Graph.node?, ← Array.getElem?_toList, nodes_addDefinitions_of_new (g := .empty) distinct]
    show (ds.map definitionNode)[i]? = _
    rw [List.getElem?_map, found]
    rfl
  obtain ⟨more, nodes, _⟩ := assembled.nodes
  have node : g.node? i = some (definitionNode d) :=
    (Graph.node?_of_append nodes (Array.getElem?_eq_some_iff.1 there).1).trans there
  obtain ⟨inRange, name⟩ := idOf_of_node node
  refine ⟨node, fun v within same => ?_, ?_⟩
  · exact Graph.idOf_inj assembled.distinct within inRange (same.trans name.symm)
  · rw [← filter_callsOf distinct (List.mem_of_getElem? found), ← assembled.calls, List.filter_map]
    refine congrArg _ (List.filter_congr fun e here => ?_)
    have within := (assembled.ends e (Array.mem_toList_iff.1 here)).1
    show (e.caller == i) = (g.idOf e.caller == d.id)
    rw [← name, Bool.eq_iff_iff, beq_iff_eq, beq_iff_eq]
    exact ⟨fun same => same ▸ rfl, Graph.idOf_inj assembled.distinct within inRange⟩

/-- Definitions that all have nodes of their own have distinct ids. -/
theorem nodup_of_ownNode (own : ∀ i d, ix.definition? i = some d → ix.OwnNode algorithm g i d) :
    ix.ids.Nodup := by
  have all : ∀ i (inRange : i < ix.ids.length), ∃ d, ix.OwnNode algorithm g i d ∧ ix.ids[i] = d.id :=
    fun i inRange => by
      have there : i < ix.definitions.size := by simpa [ids] using inRange
      exact ⟨ix.definitions[i], own i _ (Array.getElem?_eq_getElem there), by simp [ids]⟩
  refine List.pairwise_iff_getElem.2 fun i j left right before same => ?_
  obtain ⟨d, first, isFirst⟩ := all i left
  obtain ⟨c, second, isSecond⟩ := all j right
  obtain ⟨inRange, name⟩ := idOf_of_node second.node
  have equal : j = i := first.only j inRange (by rw [name, ← isSecond, ← same, isFirst])
  exact Nat.ne_of_lt before equal.symm

/-- **The graph of all definitions has a node for each of them** exactly if their ids are
distinct. -/
theorem nodup_ids_iff_ownNode (ix : Index) (algorithm : Algorithm) :
    ix.ids.Nodup ↔ ∀ i d, ix.definition? i = some d →
      ix.OwnNode algorithm (ix.assemble algorithm none (List.range ix.definitions.size)).value i d := by
  constructor
  · intro distinct i d found
    have assembled : Assembled _ _
        (ix.assemble algorithm none (List.range ix.definitions.size)).value :=
      assembled_definitions fun _ _ _ _ _ _ _ means => List.mem_range.2 (lt_of_mem_resolve means)
    rw [filterMap_definition?] at assembled
    exact ownNode_of_nodup distinct assembled (Array.getElem?_toList.trans found)
  · exact nodup_of_ownNode

end Index

end CallGraph.Program

namespace CallGraph.Builder

open Source (Features Title ToldApart)
open Program (Index SourceFile titles ids_ofSources)

/-- **The definitions of a program are told apart by their ids** exactly if they are by their titles:
by module, last names of type and trait, and name. Then, and only then, the graph of all of them has
for each a node of its own, with the place and the calls of that definition. -/
theorem analyse_own_nodes {r : BuildRequest} (whole : r.algorithm = .static ∨ r.algorithm = .cha)
    {sources : List SourceFile} (given : sources ≠ []) :
    let on : Features := { tests := r.includeTests, names := r.tags }
    let ix := Index.ofSources sources on
    ∃ g, (analyse r sources).run.value = .ok g ∧
      (ix.ids.Nodup ↔ ToldApart (titles sources on)) ∧
      (ix.ids.Nodup ↔ ∀ i d, ix.definition? i = some d → ix.OwnNode r.algorithm g i d) := by
  intro on ix
  have parsed : ¬sources.isEmpty = true := fun empty => given (List.isEmpty_iff.1 empty)
  refine ⟨(ix.assemble r.algorithm none (List.range ix.definitions.size)).value, ?_, ?_,
    ix.nodup_ids_iff_ownNode r.algorithm⟩
  · rw [value_analyse, if_neg parsed]
    rcases whole with plain | plain <;> rw [plain] <;> rfl
  · rw [ids_ofSources]
    exact Source.nodup_ids_iff

/-- A program with four functions of one name. -/
def areas : List SourceFile :=
  [⟨"app.rs", "app",
    "trait Area \x7bfn area()\x7b\x7d\x7d impl Area for Square \x7bfn area()\x7b\x7d\x7d " ++
    "impl Square \x7bfn area()\x7b area() \x7d\x7d fn area()\x7b\x7d"⟩]

theorem analyse_own_nodes_areas :
    let r : BuildRequest := { oneSource with algorithm := .cha }
    let ix := Index.ofSources areas {}
    (r.algorithm = .static ∨ r.algorithm = .cha) ∧ areas ≠ [] ∧
    ∃ g, (analyse r areas).run.value = .ok g ∧ ToldApart (titles areas {}) ∧
      ∀ i d, ix.definition? i = some d → ix.OwnNode .cha g i d := by
  intro r ix
  have given : areas ≠ [] := List.cons_ne_nil _ _
  have distinct : ix.ids.Nodup := by decide +kernel
  obtain ⟨g, built, apart, own⟩ := analyse_own_nodes (r := r) (Or.inr rfl) given
  exact ⟨Or.inr rfl, given, g, built, apart.1 distinct, own.1 distinct⟩

end CallGraph.Builder

namespace CallGraph.Source

/-! ### Instances of a trait -/

namespace Placed

/-- The module and the name of a function. -/
def function? (p : Placed) : Option (String × Name) :=
  match p.item with
  | .function f => some (p.modulePath, f.name)
  | _ => none

/-- The module and the name of a trait. -/
def trait? (p : Placed) : Option (String × Name) :=
  match p.item with
  | .trait _ _ name _ => some (p.modulePath, name)
  | _ => none

/-- The methods that a type has of its own, each with the module and the whole type. -/
def ownMethods (p : Placed) : List (String × List String × Name) :=
  match p.item with
  | .implementation _ target none methods =>
    methods.map fun f => (p.modulePath, target.texts, f.name)
  | _ => []

/-- The whole trait that a type implements, and the whole type. -/
def implementation? (p : Placed) : Option (List String × List String) :=
  match p.item with
  | .implementation _ target (some ofTrait) _ => some (ofTrait.texts, target.texts)
  | _ => none

/-- The names of the methods of a block. -/
def methods (p : Placed) : List Name :=
  match p.item with
  | .implementation _ _ _ methods => methods.map (·.name)
  | .trait _ _ _ methods => methods.map (·.name)
  | _ => []

end Placed

end CallGraph.Source

namespace CallGraph.Program

open Source (Features Placed)

/-- **A program that names nothing twice.** Types and traits count with all that they are written
with. -/
@[mk_iff]
structure WellNamed (sources : List SourceFile) (on : Features) : Prop where
  modules : (sources.map (·.modulePath)).Nodup
  functions : ((placed sources on).filterMap Placed.function?).Nodup
  traits : ((placed sources on).filterMap Placed.trait?).Nodup
  own : ((placed sources on).flatMap Placed.ownMethods).Nodup
  blocks : ∀ p ∈ placed sources on, p.methods.Nodup
  implementations : ((placed sources on).filterMap Placed.implementation?).Nodup

instance (sources : List SourceFile) (on : Features) : Decidable (WellNamed sources on) :=
  decidable_of_iff' _ (wellNamed_iff sources on)

/-- A program that makes a value from two types. -/
def conversions : List SourceFile :=
  [⟨"app.rs", "app",
    "impl From<u8> for Byte \x7bfn from()\x7b\x7d\x7d " ++
    "impl From<u16> for Byte \x7bfn from()\x7b\x7d\x7d"⟩]

/-- **Two instances of a trait are taken for one**: their functions have the same id. -/
theorem two_instances_are_one :
    ¬∀ sources on, WellNamed sources on → (Index.ofSources sources on).ids.Nodup := by
  intro all
  have named : WellNamed conversions {} := by decide +kernel
  have twice : ¬(Index.ofSources conversions {}).ids.Nodup := by decide +kernel
  exact twice (all conversions {} named)

end CallGraph.Program
