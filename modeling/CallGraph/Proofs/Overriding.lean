import CallGraph.Program.Assembly
import CallGraph.Proofs.Declared

/-!
**Calls on `self` in the default methods of a trait.**

In a default method `self` may be of any type that implements the trait, but the trait stands in the
place of the type that the method belongs to. A call on `self` is looked up there first, so what a
type puts in place of a default is found only if nothing of the trait's name has such a method.

* `DefaultOf`, `OverrideOf` — the default methods of a trait, and the methods that types implement
  it by; `defaultOf_iff`, `overrideOf_iff` tell them by what is known of definitions;
* `mem_resolve_self` — the targets of a call on `self`;
* `Index.override_mem_resolve_cha_iff` — when they include what a type puts in place;
* `Index.cha_misses_override` — a program in which they do not.
-/

namespace CallGraph.Program

open Source

/-! ### Default methods and what is put in their place -/

/-- **A default method of a trait** in the sources of a program. -/
inductive DefaultOf (sources : List SourceFile) (on : Features) (ofTrait : String) :
    Definition → Prop
  | mk {file within : String} {attributes : List Attribute} {isPublic : Bool} {name : Name}
      {methods : List (Function Code)} {f : Function Code}
      (carried : Carried sources on file within (.trait attributes isPublic name methods))
      (kept : on.keeps attributes = true) (named : name.text = ofTrait) (listed : f ∈ methods)
      (own : on.keeps f.attributes = true) :
      DefaultOf sources on ofTrait (define ⟨file, on⟩ within (some (traitOwner name)) isPublic f)

/-- **A method by which a type implements a trait** in the sources of a program. -/
inductive OverrideOf (sources : List SourceFile) (on : Features) (ofTrait type : String) :
    Definition → Prop
  | mk {file within : String} {attributes : List Attribute} {target asked : TypeName}
      {own wanted : Name} {methods : List (Function Code)} {f : Function Code}
      (carried : Carried sources on file within
        (.implementation attributes target (some asked) methods))
      (kept : on.keeps attributes = true) (named : target.name = some own)
      (asks : asked.name = some wanted) (isType : own.text = type) (isTrait : wanted.text = ofTrait)
      (listed : f ∈ methods) (counts : on.keeps f.attributes = true) :
      OverrideOf sources on ofTrait type
        (define ⟨file, on⟩ within (some (typeOwner own (some asked))) true f)

/-- **The id of a method tells the trait that asks for it.** -/
theorem ofTrait_of_functionId {modulePath name ofTrait : String} {owner : Owner}
    (same : functionId modulePath name (some owner) =
      functionId modulePath name (some { name := owner.name, ofTrait := some ofTrait })) :
    owner.ofTrait = some ofTrait := by
  have chars := congrArg String.toList same
  cases asked : owner.ofTrait with
  | none =>
    have longer := congrArg List.length chars
    simp only [functionId, ModulePath.child, asked, String.toList_append, List.length_append,
      String.length_toList] at longer
    have signs : "<".length = 1 ∧ " as ".length = 4 ∧ ">::".length = 3 ∧ "::".length = 2 := by
      decide
    omega
  | some asked =>
    simp only [functionId, ModulePath.child, asked, String.toList_append, List.append_assoc,
      List.append_cancel_left_eq, List.append_cancel_right_eq] at chars
    rw [String.toList_inj.1 chars]

variable {sources : List SourceFile} {on : Features} {d : Definition} {ofTrait type : String}

/-- A definition is a default method of a trait if that is what it is marked as. -/
theorem defaultOf_iff : DefaultOf sources on ofTrait d ↔
    (∃ n, (Index.ofSources sources on).definition? n = some d) ∧ d.receiver = some ofTrait ∧
      d.isDefault = true := by
  rw [exists_definition?_iff]
  constructor
  · rintro ⟨carried, kept, rfl, listed, own⟩
    exact ⟨⟨_, _, _, carried, .default kept listed own⟩, rfl, rfl⟩
  · rintro ⟨⟨file, within, i, carried, declares⟩, receiver, isDefault⟩
    cases declares with
    | function _ => cases isDefault
    | method _ _ _ _ => cases isDefault
    | default kept listed own => exact ⟨carried, kept, Option.some.inj receiver, listed, own⟩

/-- A definition is a method by which a type implements a trait if its id says so. -/
theorem overrideOf_iff : OverrideOf sources on ofTrait type d ↔
    (∃ n, (Index.ofSources sources on).definition? n = some d) ∧ d.receiver = some type ∧
      d.id = functionId d.modulePath d.name (some { name := type, ofTrait := some ofTrait }) := by
  rw [exists_definition?_iff]
  constructor
  · rintro @⟨file, within, _, _, asked, own, wanted, _, f, carried, kept, named, asks, rfl, rfl, listed,
      counts⟩
    have told : (typeOwner own (some asked)).ofTrait = some wanted.text := by
      simp [typeOwner, asks]
    have declares := @Declares.method ⟨file, on⟩ within _ _ (some asked) _ _ _ kept named listed
      counts
    rw [told] at declares
    refine ⟨⟨_, _, _, carried, declares⟩, rfl, ?_⟩
    show functionId within f.name.text (some (typeOwner own (some asked))) =
      functionId within f.name.text (some { name := own.text, ofTrait := some wanted.text })
    simp only [functionId, told]
    rfl
  · rintro ⟨⟨file, within, i, carried, declares⟩, receiver, id⟩
    cases declares with
    | function _ => cases receiver
    | @method attributes target ofType methods own f kept named listed counts =>
      obtain rfl : own.text = type := Option.some.inj receiver
      have told : (typeOwner own ofType).ofTrait = some ofTrait := ofTrait_of_functionId id
      obtain ⟨wanted, asks, isTrait⟩ := Option.map_eq_some_iff.1 told
      obtain ⟨asked, rfl, asks⟩ := Option.bind_eq_some_iff.1 asks
      rw [told]
      exact ⟨carried, kept, named, asks, rfl, isTrait, listed, counts⟩
    | @default attributes isPublic name methods f kept listed counts =>
      obtain rfl : name.text = type := Option.some.inj receiver
      have told : (traitOwner name).ofTrait = some ofTrait := ofTrait_of_functionId id
      cases told

/-! ### Targets -/

namespace Index

variable {ix : Index} {algorithm : Algorithm} {made : Option (List String)} {caller : Definition}
  {site : Site} {name : String} {i : Nat}

theorem mem_methodsOf :
    i ∈ ix.methodsOf type name ↔
      ∃ d, ix.definition? i = some d ∧ d.receiver = some type ∧ d.name = name := by
  rw [methodsOf, mem_select]
  simp only [Bool.and_eq_true, beq_iff_eq]

theorem mem_methodsNamed : i ∈ ix.methodsNamed name ↔
    ∃ d, ix.definition? i = some d ∧ d.receiver.isSome = true ∧ d.name = name := by
  rw [methodsNamed, mem_select]
  simp only [Bool.and_eq_true, beq_iff_eq]

/-- **The targets of a call on `self`**: the methods of that name that belong to the same type; if
there are none, those that the analysis chooses among all. -/
theorem mem_resolve_self (target : site.target = .method name true)
    (belongs : caller.receiver = some type) :
    .definition i ∈ ix.resolve algorithm made caller site ↔
      if ix.methodsOf type name = [] then i ∈ ix.methodChoices algorithm made name
      else i ∈ ix.methodsOf type name := by
  have own : ix.ownMethods caller name true = ix.methodsOf type name := by
    simp only [ownMethods, belongs]
  rw [resolve, target]
  show .definition i ∈ ix.resolveMethod algorithm made caller name true ↔ _
  simp only [resolveMethod, Target.definition_mem_orUnresolved, List.mem_map, methodTargets, own,
    List.isEmpty_iff, Target.definition.injEq, exists_eq_right]
  split <;> rfl

/-- **When a call on `self` in a default method means what a type puts in place.** To the analysis
that takes all methods into account it does exactly if the type has the name of the trait, or
nothing of that name has such a method; a default for it is enough to leave all others out. -/
theorem override_mem_resolve_cha_iff {sources : List SourceFile} {on : Features}
    {caller d : Definition} {ofTrait type : String} {site : Site}
    (default : DefaultOf sources on ofTrait caller) (override : OverrideOf sources on ofTrait type d)
    (target : site.target = .method d.name true) :
    (∃ i, (ofSources sources on).definition? i = some d) ∧
    ∀ i, (ofSources sources on).definition? i = some d →
      (.definition i ∈ (ofSources sources on).resolve .cha none caller site ↔
        type = ofTrait ∨ ¬∃ j own, (ofSources sources on).definition? j = some own ∧
          own.receiver = some ofTrait ∧ own.name = d.name) := by
  obtain ⟨_, belongs, _⟩ := defaultOf_iff.1 default
  obtain ⟨there, receiver, _⟩ := overrideOf_iff.1 override
  refine ⟨there, fun i found => ?_⟩
  rw [mem_resolve_self target belongs]
  have none_iff : (ofSources sources on).methodsOf ofTrait d.name = [] ↔
      ¬∃ j own, (ofSources sources on).definition? j = some own ∧
        own.receiver = some ofTrait ∧ own.name = d.name := by
    simp only [List.eq_nil_iff_forall_not_mem, mem_methodsOf, not_exists]
  split
  · rename_i none
    refine iff_of_true (mem_methodsNamed.2 ⟨d, found, by rw [receiver]; rfl, rfl⟩) ?_
    exact Or.inr (none_iff.1 none)
  · rename_i some
    rw [← none_iff, or_iff_left some, mem_methodsOf]
    constructor
    · rintro ⟨d', found', receiver', _⟩
      rw [found] at found'
      cases found'
      exact Option.some.inj (receiver.symm.trans receiver')
    · rintro rfl
      exact ⟨d, found, receiver, rfl⟩

/-! ### A program -/

/-- A trait with two default methods, one of which calls the other, and a type that puts its own
method in place of that. -/
def greeting : List SourceFile :=
  [⟨"src/lib.rs", "app", "trait Greet \x7b fn hi(&self) \x7b self.name() \x7d " ++
    "fn name(&self) \x7b\x7d \x7d struct En; impl Greet for En \x7b fn name(&self) \x7b\x7d \x7d"⟩]

/-- The call of the first method. -/
def callOfName : Site where
  target := .method "name" true
  line := 1

/-- The method that calls the other. -/
def greetHi : Definition where
  id := "app::Greet::hi"
  name := "hi"
  modulePath := "app"
  receiver := some "Greet"
  isDefault := true
  exported := false
  file := "src/lib.rs"
  line := 1
  isTest := false
  sites := [callOfName]
  makes := []

/-- The default of the method that is called. -/
def greetName : Definition where
  id := "app::Greet::name"
  name := "name"
  modulePath := "app"
  receiver := some "Greet"
  isDefault := true
  exported := false
  file := "src/lib.rs"
  line := 1
  isTest := false
  sites := []
  makes := []

/-- What the type puts in its place. -/
def enName : Definition where
  id := "app::<En as Greet>::name"
  name := "name"
  modulePath := "app"
  receiver := some "En"
  exported := true
  file := "src/lib.rs"
  line := 1
  isTest := false
  sites := []
  makes := []

theorem definitions_greeting :
    (ofSources greeting {}).definitions = #[greetHi, greetName, enName] := by
  decide +kernel

theorem defaultOf_greetHi : DefaultOf greeting {} "Greet" greetHi := by
  refine defaultOf_iff.2 ⟨⟨0, ?_⟩, rfl, rfl⟩
  rw [definition?, definitions_greeting]
  rfl

theorem definition?_enName : (ofSources greeting {}).definition? 2 = some enName := by
  rw [definition?, definitions_greeting]
  rfl

theorem overrideOf_enName : OverrideOf greeting {} "Greet" "En" enName :=
  overrideOf_iff.2 ⟨⟨2, definition?_enName⟩, rfl, by decide +kernel⟩

theorem override_mem_resolve_cha_iff_greeting :
    DefaultOf greeting {} "Greet" greetHi ∧ OverrideOf greeting {} "Greet" "En" enName ∧
    callOfName ∈ greetHi.sites ∧ callOfName.target = .method enName.name true ∧
    (∃ i, (ofSources greeting {}).definition? i = some enName) ∧
    ∀ i, (ofSources greeting {}).definition? i = some enName →
      (.definition i ∈ (ofSources greeting {}).resolve .cha none greetHi callOfName ↔
        "En" = "Greet" ∨ ¬∃ j own, (ofSources greeting {}).definition? j = some own ∧
          own.receiver = some "Greet" ∧ own.name = enName.name) :=
  ⟨defaultOf_greetHi, overrideOf_enName, List.mem_singleton_self _, rfl,
    override_mem_resolve_cha_iff defaultOf_greetHi overrideOf_enName rfl⟩

/-- **A default method hides what types put in its place.** The call of the program above means the
default only, although a type that implements the trait has a method of its own. -/
theorem cha_misses_override :
    ¬∀ (sources : List SourceFile) (on : Features) (ofTrait type : String) (caller d : Definition)
      (site : Site), DefaultOf sources on ofTrait caller → site ∈ caller.sites →
      OverrideOf sources on ofTrait type d → site.target = .method d.name true →
      ∃ i, (ofSources sources on).definition? i = some d ∧
        .definition i ∈ (ofSources sources on).resolve .cha none caller site := by
  intro all
  obtain ⟨i, found, means⟩ := all greeting {} "Greet" "En" greetHi enName callOfName
    defaultOf_greetHi (List.mem_singleton_self _) overrideOf_enName rfl
  have targets : (ofSources greeting {}).resolve .cha none greetHi callOfName = [.definition 1] := by
    decide +kernel
  rw [targets, List.mem_singleton, Target.definition.injEq] at means
  rw [means, definition?, definitions_greeting] at found
  exact absurd found (by decide)

end Index

end CallGraph.Program
