import CallGraph.Proofs.Conditions

/-!
**Conditions cut a text down.**

A walk over a text asks at each item, at each method and at the head of the text whether its
attributes let it count. The same facts come from a walk that asks nothing, over a text from which
all that has a false attribute was cut away before.

* `Attribute.IsFalse` — a condition that is false, or a test where tests are not included;
* `SourceTree.pruned` — the text that is left, `SourceTree.everyFact` — the facts of a text if
  nothing depends on a condition;
* `SourceTree.facts_eq_pruned` — both together give the facts of the text;
* `gating_prunes` — the same for conditions about tests and features;
* `others_kept_iff` — and for conditions about anything else: they count as what is left of them
  when all leaves are true, so what is for all platforms but one is lost
  (`negated_platform_is_lost`).
-/

namespace CallGraph.Source

/-! ### Attributes -/

namespace Attribute

/-- The formula of an attribute that an item may depend on: that of its condition; of a test, that
tests are included. -/
def gate? (a : Attribute) : Option (Formula Switch) :=
  if a.isNamed "test" then some (.leaf .tests)
  else if a.isNamed "cfg" then a.condition.bind (·.formula? Switch.of?)
  else none

/-- **An attribute that is false.** -/
def IsFalse (on : Features) (a : Attribute) : Prop :=
  ∃ f ∈ a.gate?, ¬f.Holds (Switch.On on)

instance (on : Features) : DecidablePred (IsFalse on) := fun a =>
  inferInstanceAs (Decidable (∃ f ∈ a.gate?, ¬f.Holds (Switch.On on)))

/-- If an attribute is a condition, it holds exactly one, and that is about tests and features. -/
def Understood (a : Attribute) : Prop :=
  a.isNamed "cfg" = true → a.gate?.isSome = true

instance : DecidablePred Understood := fun a =>
  inferInstanceAs (Decidable (a.isNamed "cfg" = true → a.gate?.isSome = true))

variable {on : Features} {a : Attribute}

/-- A condition lets an item count if its formula holds. -/
theorem admits_of_formula? {α : Type} {leaf? : Condition → Option α} {v : α → Prop}
    {f : Formula α} (leaves : ∀ c a, leaf? c = some a → (c.holds on = true ↔ v a))
    (apart : a.isNamed "test" = false) (named : a.isNamed "cfg" = true)
    (reads : a.condition.bind (·.formula? leaf?) = some f) : a.admits on = true ↔ f.Holds v := by
  obtain ⟨c, given, reads⟩ := Option.bind_eq_some_iff.1 reads
  rw [admits, apart, if_neg Bool.false_ne_true, if_pos named, given]
  exact Condition.holds_iff_of_formula? leaves c reads

/-- An attribute that is understood lets an item count unless it is false. -/
theorem admits_iff (understood : a.Understood) : a.admits on = true ↔ ¬a.IsFalse on := by
  by_cases test : a.isNamed "test" = true
  · have gate : a.gate? = some (.leaf .tests) := if_pos test
    simp [admits, IsFalse, test, gate, Switch.On]
  · by_cases named : a.isNamed "cfg" = true
    · obtain ⟨f, gate⟩ := Option.isSome_iff_exists.1 (understood named)
      have reads : a.condition.bind (·.formula? Switch.of?) = some f := by
        rwa [gate?, if_neg test, if_pos named] at gate
      rw [admits_of_formula? Switch.holds_iff_on (Bool.eq_false_iff.2 test) named reads]
      simp [IsFalse, gate]
    · have gate : a.gate? = none := by
        rw [gate?, if_neg test, if_neg named]
      simp [admits, IsFalse, test, named, gate]

end Attribute

/-! ### Pruned texts -/

mutual

/-- All attributes of an item and of what it holds, bodies left out. -/
def Item.attributes : Item → List Attribute
  | .function f => f.attributes
  | .implementation attributes _ _ methods => attributes ++ methods.flatMap (·.attributes)
  | .trait attributes _ _ methods => attributes ++ methods.flatMap (·.attributes)
  | .submodule attributes _ (some items) => attributes ++ Item.listAttributes items
  | .submodule attributes _ none => attributes
  | .imports attributes _ => attributes
  | .other => []

/-- All attributes of several items. -/
def Item.listAttributes : List Item → List Attribute
  | [] => []
  | i :: rest => i.attributes ++ Item.listAttributes rest

end

/-- All attributes that something in a text may depend on. -/
def SourceTree.allAttributes (t : SourceTree) : List Attribute :=
  t.attributes ++ Item.listAttributes t.items

section Pruning

variable (off : Attribute → Prop) [DecidablePred off]

/-- The methods that are left: those without an attribute that is off. -/
def remaining (methods : List (Function Code)) : List (Function Code) :=
  methods.filter fun f => ¬∃ a ∈ f.attributes, off a

mutual

/-- What is left of an item: nothing if one of its attributes is off, else the item with what is
left of its parts. -/
def Item.pruned : Item → List Item
  | .function f => if ∃ a ∈ f.attributes, off a then [] else [.function f]
  | .implementation attributes target ofTrait methods =>
    if ∃ a ∈ attributes, off a then []
    else [.implementation attributes target ofTrait (remaining off methods)]
  | .trait attributes isPublic name methods =>
    if ∃ a ∈ attributes, off a then []
    else [.trait attributes isPublic name (remaining off methods)]
  | .submodule attributes name (some items) =>
    if ∃ a ∈ attributes, off a then []
    else [.submodule attributes name (some (Item.listPruned items))]
  | .submodule attributes name none =>
    if ∃ a ∈ attributes, off a then [] else [.submodule attributes name none]
  | .imports attributes tree =>
    if ∃ a ∈ attributes, off a then [] else [.imports attributes tree]
  | .other => [.other]

/-- What is left of several items. -/
def Item.listPruned : List Item → List Item
  | [] => []
  | i :: rest => i.pruned ++ Item.listPruned rest

end

/-- **What is left of a text**: nothing if one of its own attributes is off. -/
def SourceTree.pruned (t : SourceTree) : SourceTree :=
  if ∃ a ∈ t.attributes, off a then { attributes := [], items := [] }
  else { t with items := Item.listPruned off t.items }

end Pruning

/-! ### Facts without conditions -/

/-- The definitions that all methods of a type or a trait are. -/
def defineEvery (file modulePath : String) (owner : Owner) (exported : Function Code → Bool)
    (methods : List (Function Code)) : List Definition :=
  methods.map fun f => define { file := file, on := {} } modulePath (some owner) (exported f) f

mutual

/-- The facts of an item, whatever its attributes say. -/
def Item.everyFact (file modulePath : String) : Item → Facts
  | .function f =>
    { definitions := [define { file := file, on := {} } modulePath none f.isPublic f] }
  | .implementation _ target ofTrait methods =>
    match target.name with
    | none => {}
    | some type =>
      let traitName := (ofTrait.bind (·.name)).map (·.text)
      { definitions :=
          defineEvery file modulePath { name := type.text, ofTrait := traitName }
            (fun f => traitName.isSome || f.isPublic) methods
        implementations := (traitName.map fun t => (t, type.text)).toList }
  | .trait _ isPublic name methods =>
    { definitions :=
        defineEvery file modulePath { name := name.text, isDefault := true } (fun _ => isPublic)
          methods }
  | .submodule _ name (some items) =>
    Item.listEveryFact file (ModulePath.child modulePath name.text) items
  | .submodule _ _ none => {}
  | .imports _ tree =>
    { imports := (tree.bindings []).map fun (name, path) => ⟨modulePath, name, path⟩ }
  | .other => {}

/-- The facts of several items, whatever their attributes say. -/
def Item.listEveryFact (file modulePath : String) : List Item → Facts
  | [] => {}
  | i :: rest => i.everyFact file modulePath ++ Item.listEveryFact file modulePath rest

end

/-- **The facts of a text, whatever its attributes say.** -/
def SourceTree.everyFact (file modulePath : String) (t : SourceTree) : Facts :=
  Item.listEveryFact file modulePath t.items

theorem Facts.append_empty (a : Facts) : a ++ {} = a := by
  show Facts.append a {} = a
  simp only [Facts.append, List.append_nil]

theorem Facts.empty_append (a : Facts) : {} ++ a = a := by
  show Facts.append {} a = a
  simp only [Facts.append, List.nil_append]

theorem Facts.append_assoc (a b c : Facts) : a ++ b ++ c = a ++ (b ++ c) := by
  show Facts.append (Facts.append a b) c = Facts.append a (Facts.append b c)
  simp only [Facts.append, List.append_assoc]

theorem Item.listEveryFact_singleton (file modulePath : String) (i : Item) :
    Item.listEveryFact file modulePath [i] = i.everyFact file modulePath := by
  rw [listEveryFact, listEveryFact, Facts.append_empty]

theorem Item.listEveryFact_append (file modulePath : String) (first later : List Item) :
    Item.listEveryFact file modulePath (first ++ later) =
      Item.listEveryFact file modulePath first ++ Item.listEveryFact file modulePath later := by
  induction first with
  | nil => rw [List.nil_append, listEveryFact, Facts.empty_append]
  | cons i rest hyp => rw [List.cons_append, listEveryFact, listEveryFact, hyp, Facts.append_assoc]

/-! ### Walks over what is left -/

variable {off : Attribute → Prop} [DecidablePred off] {o : Origin}

omit [DecidablePred off] in
/-- Something is kept unless one of its attributes is off. -/
theorem keeps_iff {on : Features} {attributes : List Attribute}
    (each : ∀ a ∈ attributes, a.admits on = true ↔ ¬off a) :
    on.keeps attributes = true ↔ ¬∃ a ∈ attributes, off a := by
  simp only [Features.keeps, List.all_eq_true, not_exists, not_and]
  exact forall₂_congr each

/-- The facts of something that is kept are those of what is left of it. -/
theorem facts_of_kept {modulePath : String} {attributes : List Attribute} {facts : Facts}
    {left : Item} (each : ∀ a ∈ attributes, a.admits o.on = true ↔ ¬off a)
    (same : facts = left.everyFact o.file modulePath) :
    (if o.on.keeps attributes then facts else {}) = Item.listEveryFact o.file modulePath
      (if ∃ a ∈ attributes, off a then [] else [left]) := by
  by_cases gone : ∃ a ∈ attributes, off a
  · rw [if_neg (mt (keeps_iff each).1 (not_not_intro gone)), if_pos gone, Item.listEveryFact]
  · rw [if_pos ((keeps_iff each).2 gone), if_neg gone, Item.listEveryFact_singleton, same]

/-- The definitions of the methods that are kept are all of those that are left. -/
theorem defineAll_eq (modulePath : String) (owner : Owner) (exported : Function Code → Bool)
    {methods : List (Function Code)}
    (each : ∀ a ∈ methods.flatMap (·.attributes), a.admits o.on = true ↔ ¬off a) :
    defineAll o modulePath owner exported methods =
      defineEvery o.file modulePath owner exported (remaining off methods) := by
  -- Methods are asked one by one, so only their own attributes matter here.
  have same : (methods.filter fun f => o.on.keeps f.attributes) = remaining off methods := by
    refine List.filter_congr fun f listed => ?_
    have own : ∀ a ∈ f.attributes, a.admits o.on = true ↔ ¬off a := fun a here =>
      each a (List.mem_flatMap.2 ⟨f, listed, here⟩)
    rw [Bool.eq_iff_iff, decide_eq_true_eq]
    exact keeps_iff own
  rw [defineAll, same]
  rfl

mutual

/-- The facts of an item are all facts of what is left of it. -/
theorem Item.facts_eq_pruned (modulePath : String) (i : Item)
    (each : ∀ a ∈ i.attributes, a.admits o.on = true ↔ ¬off a) :
    i.facts o modulePath = Item.listEveryFact o.file modulePath (i.pruned off) := by
  match i with
  | .function f =>
    rw [attributes] at each
    rw [facts, pruned]
    exact facts_of_kept each rfl
  | .implementation attributes target ofTrait methods =>
    rw [Item.attributes, List.forall_mem_append] at each
    rw [facts, pruned]
    refine facts_of_kept each.1 ?_
    rw [implementationFacts, everyFact]
    cases target.name with
    | none => rfl
    | some type =>
      dsimp only
      rw [defineAll_eq modulePath _ _ each.2]
  | .trait attributes isPublic name methods =>
    rw [Item.attributes, List.forall_mem_append] at each
    rw [facts, pruned]
    refine facts_of_kept each.1 ?_
    rw [everyFact, defineAll_eq modulePath _ _ each.2]
  | .submodule attributes name (some items) =>
    rw [Item.attributes, List.forall_mem_append] at each
    rw [facts, pruned]
    refine facts_of_kept each.1 ?_
    rw [everyFact]
    exact Item.listFacts_eq_pruned _ items each.2
  | .submodule attributes name none =>
    -- A module in another text says nothing here, whether it is left or not.
    rw [facts, pruned]
    split <;> simp only [listEveryFact, everyFact, Facts.append_empty]
  | .imports attributes tree =>
    rw [Item.attributes] at each
    rw [facts, pruned]
    refine facts_of_kept each ?_
    rw [everyFact]
  | .other =>
    rw [facts, pruned, listEveryFact_singleton, everyFact]

/-- The facts of several items are all facts of what is left of them. -/
theorem Item.listFacts_eq_pruned (modulePath : String) (items : List Item)
    (each : ∀ a ∈ Item.listAttributes items, a.admits o.on = true ↔ ¬off a) :
    Item.listFacts o modulePath items =
      Item.listEveryFact o.file modulePath (Item.listPruned off items) := by
  match items with
  | [] => rw [listFacts, listPruned, listEveryFact]
  | i :: rest =>
    rw [listAttributes, List.forall_mem_append] at each
    rw [listFacts, listPruned, listEveryFact_append,
      Item.facts_eq_pruned modulePath i each.1, Item.listFacts_eq_pruned modulePath rest each.2]

end

/-- **The facts of a text are all facts of what is left of it**, if an attribute lets an item count
exactly if it is not off. -/
theorem SourceTree.facts_eq_pruned (modulePath : String) (t : SourceTree)
    (each : ∀ a ∈ t.allAttributes, a.admits o.on = true ↔ ¬off a) :
    t.facts o modulePath = (t.pruned off).everyFact o.file modulePath := by
  rw [allAttributes, List.forall_mem_append] at each
  rw [facts, pruned, Item.listFacts_eq_pruned modulePath t.items each.2]
  by_cases gone : ∃ a ∈ t.attributes, off a
  · rw [if_neg (mt (keeps_iff each.1).1 (not_not_intro gone)), if_pos gone, everyFact,
      Item.listEveryFact]
  · rw [if_pos ((keeps_iff each.1).2 gone), if_neg gone, everyFact]

/-! ### Tests and features -/

/-- **Conditions cut a text down.** The facts of a text whose conditions are about tests and
features are all facts of what is left of it, when everything with an attribute that is false is
taken away. -/
theorem gating_prunes (o : Origin) (modulePath text : String)
    (understood : ∀ t ∈ SourceTree.ofText? text, ∀ a ∈ t.allAttributes, a.Understood) :
    Facts.ofText? o modulePath text = (SourceTree.ofText? text).map fun t =>
      (t.pruned (Attribute.IsFalse o.on)).everyFact o.file modulePath := by
  rw [Facts.ofText?]
  refine Option.map_congr fun t read => ?_
  exact t.facts_eq_pruned modulePath fun a here =>
    Attribute.admits_iff (understood t read a here)

/-- A text with functions that depend on tests and on a feature. -/
def gatedEngine : String :=
  "#[cfg(test)] mod tests \x7b fn check() \x7b\x7d \x7d\n" ++
  "impl Engine \x7b #[cfg(all(not(test), any(feature = \"fast\",)))] fn run() \x7b\x7d \x7d"

/-- What is switched on for it. -/
def fastEngine : Origin where
  file := "src/lib.rs"
  on := { names := ["fast"] }

theorem gating_prunes_gatedEngine :
    (∀ t ∈ SourceTree.ofText? gatedEngine, ∀ a ∈ t.allAttributes, a.Understood) ∧
    (Facts.ofText? fastEngine "app" gatedEngine = (SourceTree.ofText? gatedEngine).map fun t =>
      (t.pruned (Attribute.IsFalse fastEngine.on)).everyFact "src/lib.rs" "app") ∧
    (Facts.ofText? fastEngine "app" gatedEngine).map (·.definitions.map (·.name)) =
      some ["run"] := by
  have known : (SourceTree.ofText? gatedEngine).map (fun t =>
      (decide (∀ a ∈ t.allAttributes, a.Understood),
        (t.facts fastEngine "app").definitions.map (·.name))) = some (true, ["run"]) := by
    decide +kernel
  obtain ⟨t, read, same⟩ := Option.map_eq_some_iff.1 known
  rw [Prod.mk.injEq, decide_eq_true_eq] at same
  have understood : ∀ t ∈ SourceTree.ofText? gatedEngine, ∀ a ∈ t.allAttributes, a.Understood := by
    rw [read]
    rintro _ ⟨⟩
    exact same.1
  refine ⟨understood, gating_prunes fastEngine "app" gatedEngine understood, ?_⟩
  rw [Facts.ofText?, read, Option.map_some, Option.map_some, same.2]

/-! ### Other conditions -/

namespace Attribute

/-- The formula of a condition about neither tests nor features. -/
def other? (a : Attribute) : Option (Formula Condition) :=
  if a.isNamed "cfg" then a.condition.bind (·.formula? Condition.other?) else none

/-- No test, and if it is a condition, it holds exactly one, about neither tests nor features. -/
def IsOther (a : Attribute) : Prop :=
  a.isNamed "test" = false ∧ (a.isNamed "cfg" = true → a.other?.isSome = true)

instance : DecidablePred IsOther := fun a =>
  inferInstanceAs (Decidable
    (a.isNamed "test" = false ∧ (a.isNamed "cfg" = true → a.other?.isSome = true)))

/-- **A condition that is false when all that it says of the platform counts as true.** -/
def IsLost (a : Attribute) : Prop :=
  ∃ f ∈ a.other?, ¬f.Holds fun _ => True

instance : DecidablePred IsLost := fun a =>
  inferInstanceAs (Decidable (∃ f ∈ a.other?, ¬f.Holds fun _ => True))

/-- Whatever is switched on, such a condition lets an item count unless it is lost. -/
theorem admits_iff_of_isOther {on : Features} {a : Attribute} (other : a.IsOther) :
    a.admits on = true ↔ ¬a.IsLost := by
  obtain ⟨apart, readable⟩ := other
  by_cases named : a.isNamed "cfg" = true
  · obtain ⟨f, known⟩ := Option.isSome_iff_exists.1 (readable named)
    have reads : a.condition.bind (·.formula? Condition.other?) = some f := by
      rwa [other?, if_pos named] at known
    have leaves : ∀ c l, Condition.other? c = some l → (c.holds on = true ↔ True) :=
      fun c l found => iff_true_intro (Condition.holds_of_other? c l found)
    rw [admits_of_formula? leaves apart named reads]
    simp [IsLost, known]
  · have none : a.other? = none := if_neg named
    simp [admits, IsLost, apart, named, none]

end Attribute

/-- **Other conditions count as what is left of them when all leaves are true.** Something that
depends on the platform is kept exactly if each of its conditions is true then, whatever is switched
on; so a text has all facts of what is left of it, when everything else is taken away. -/
theorem others_kept_iff (t : SourceTree) (others : ∀ a ∈ t.allAttributes, a.IsOther) (o : Origin)
    (modulePath : String) :
    (∀ attributes ⊆ t.allAttributes, o.on.keeps attributes = true ↔
      ∀ a ∈ attributes, ∀ f ∈ a.other?, f.Holds fun _ => True) ∧
    t.facts o modulePath = (t.pruned Attribute.IsLost).everyFact o.file modulePath := by
  have each : ∀ a ∈ t.allAttributes, a.admits o.on = true ↔ ¬a.IsLost := fun a here =>
    Attribute.admits_iff_of_isOther (others a here)
  refine ⟨fun attributes among => ?_, t.facts_eq_pruned modulePath each⟩
  rw [keeps_iff fun a here => each a (among here)]
  simp only [Attribute.IsLost, not_exists, not_and, not_not]

/-- A text with functions for some platforms. -/
def severalPlatforms : String :=
  "#[cfg(any(unix, not(windows)))] fn here() \x7b\x7d #[cfg(not(unix))] fn there() \x7b\x7d"

theorem others_kept_iff_severalPlatforms :
    ∃ t, SourceTree.ofText? severalPlatforms = some t ∧ (∀ a ∈ t.allAttributes, a.IsOther) ∧
      ((∀ attributes ⊆ t.allAttributes, fastEngine.on.keeps attributes = true ↔
          ∀ a ∈ attributes, ∀ f ∈ a.other?, f.Holds fun _ => True) ∧
        t.facts fastEngine "app" = (t.pruned Attribute.IsLost).everyFact "src/lib.rs" "app") ∧
      (t.facts fastEngine "app").definitions.map (·.name) = ["here"] := by
  have known : (SourceTree.ofText? severalPlatforms).map (fun t =>
      (decide (∀ a ∈ t.allAttributes, a.IsOther),
        (t.facts fastEngine "app").definitions.map (·.name))) = some (true, ["here"]) := by
    decide +kernel
  obtain ⟨t, read, same⟩ := Option.map_eq_some_iff.1 known
  rw [Prod.mk.injEq, decide_eq_true_eq] at same
  exact ⟨t, read, same.1, others_kept_iff t same.1 fastEngine "app", same.2⟩

/-- A function for all platforms but one. -/
def notForWindows : String :=
  "#[cfg(not(windows))] fn run() \x7b\x7d"

/-- **A condition that excludes a platform is lost**, and what depends on it: the text above is one
for other platforms alone, and has no definition. -/
theorem negated_platform_is_lost :
    ¬∀ (o : Origin) (modulePath text : String) (t : SourceTree),
      SourceTree.ofText? text = some t → (∀ a ∈ t.allAttributes, a.IsOther) →
        t.facts o modulePath = t.everyFact o.file modulePath := by
  intro all
  have known : (SourceTree.ofText? notForWindows).map (fun t =>
      (decide (∀ a ∈ t.allAttributes, a.IsOther),
        (t.facts fastEngine "app").definitions.map (·.name),
        (t.everyFact "src/lib.rs" "app").definitions.map (·.name))) =
      some (true, [], ["run"]) := by
    decide +kernel
  obtain ⟨t, read, same⟩ := Option.map_eq_some_iff.1 known
  simp only [Prod.mk.injEq, decide_eq_true_eq] at same
  obtain ⟨others, found, written⟩ := same
  rw [all fastEngine "app" notForWindows t read others] at found
  exact absurd (written.symm.trans found) (List.cons_ne_nil _ _)

end CallGraph.Source
