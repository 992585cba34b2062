import CallGraph.Proofs.Outcome
import CallGraph.Proofs.Reimport
import Mathlib.Data.Prod.Lex
import Mathlib.Order.Bounds.Basic

/-!
**References and the nodes they name.**

A reference can be read in five ways, and each way may fit several nodes. The node it names is the least
match: of the ways that fit any node the first, and of the nodes that it fits the first.

* `Symbol.Reads` — the ways to read a reference, numbered; `Symbol.reads_iff` — they are the rules;
* `Symbol.isQualified_eq_strips` — taking a qualified name apart is putting it together;
* `Symbol.Matches` — the pairs of a way and a node, `Symbol.findSome?_byRule_cases` — the rules in their
  order find the least of them, if there is one;
* `Symbol.value_selectSymbol_eq_notFound_iff` — a walk fails for want of a symbol only if there is none;
* `Symbol.resolve_is_least` — **resolution is the least match**.
-/

namespace CallGraph.Symbol

/-! ### Ways to read a reference -/

/-- A qualifier and a name with a separator between them. -/
def Joined (t qualifier name : String) : Prop :=
  t = qualifier ++ "::" ++ name ∨ t = qualifier ++ "." ++ name

/-- **How a text can be read as a node**: the ways are numbered, the most important first. -/
inductive Reads (t : String) (n : Node) : ℕ → Prop
  | id : n.id = t → Reads t n 1
  | name : n.name = t → Reads t n 2
  | moduleName {q : String} : n.moduleName = some q → Joined t q n.name → Reads t n 3
  | modulePath {q : String} : n.modulePath = some q → Joined t q n.name → Reads t n 4
  | receiver {q : String} : n.receiver = some q → Joined t q n.name → Reads t n 5

theorem isQualified_iff {t qualifier name : String} :
    isQualified t qualifier name = true ↔ Joined t qualifier name := by
  simp [isQualified, separators, Joined]

theorem any_isQualified_iff {o : Option String} {t name : String} :
    (o.any fun q => isQualified t q name) = true ↔ ∃ q, o = some q ∧ Joined t q name := by
  simp [Option.any_eq_true, isQualified_iff]

/-- A qualified name taken apart: first the name is cut off, then the separator, and the qualifier has to
be left. -/
def strips (t qualifier name : String) : Bool :=
  (Text.dropEnding? t name).any fun head =>
    separators.any fun separator => Text.dropEnding? head separator == some qualifier

/-- **Taking a qualified name apart is putting it together**, whatever the parts are. -/
theorem isQualified_eq_strips (t qualifier name : String) :
    isQualified t qualifier name = strips t qualifier name := by
  rw [Bool.eq_iff_iff, isQualified_iff, strips, Option.any_eq_true]
  simp only [separators, List.any_cons, List.any_nil, Bool.or_false, Bool.or_eq_true, beq_iff_eq,
    Text.dropEnding?_eq_some_iff]
  constructor
  · rintro (rfl | rfl)
    · exact ⟨_, rfl, Or.inl rfl⟩
    · exact ⟨_, rfl, Or.inr rfl⟩
  · rintro ⟨head, rfl, rfl | rfl⟩
    · exact Or.inl rfl
    · exact Or.inr rfl

/-- The number of a rule. -/
def Rule.number : Rule → ℕ
  | byId => 1
  | byName => 2
  | byModuleName => 3
  | byModulePath => 4
  | byReceiver => 5

/-- The rules are tried in the order of their numbers. -/
theorem Rule.pairwise_number : Rule.all.Pairwise fun a b => a.number < b.number := by
  decide

/-- **The rules are the ways to read a reference.** -/
theorem reads_iff {t : String} {n : Node} {k : ℕ} :
    Reads t n k ↔ ∃ rule : Rule, rule.number = k ∧ rule.fits n t = true := by
  constructor
  · rintro (same | same | ⟨here, joined⟩ | ⟨here, joined⟩ | ⟨here, joined⟩)
    · exact ⟨.byId, rfl, beq_iff_eq.2 same⟩
    · exact ⟨.byName, rfl, beq_iff_eq.2 same⟩
    · exact ⟨.byModuleName, rfl, any_isQualified_iff.2 ⟨_, here, joined⟩⟩
    · exact ⟨.byModulePath, rfl, any_isQualified_iff.2 ⟨_, here, joined⟩⟩
    · exact ⟨.byReceiver, rfl, any_isQualified_iff.2 ⟨_, here, joined⟩⟩
  · rintro ⟨rule, rfl, fits⟩
    cases rule with
    | byId => exact .id (beq_iff_eq.1 fits)
    | byName => exact .name (beq_iff_eq.1 fits)
    | byModuleName =>
      obtain ⟨q, here, joined⟩ := any_isQualified_iff.1 fits
      exact .moduleName here joined
    | byModulePath =>
      obtain ⟨q, here, joined⟩ := any_isQualified_iff.1 fits
      exact .modulePath here joined
    | byReceiver =>
      obtain ⟨q, here, joined⟩ := any_isQualified_iff.1 fits
      exact .receiver here joined

/-! ### The least match -/

variable {g : Graph} {t : String}

/-- The pairs of a way to read a reference and a node that is so read, ways first. -/
def Matches (g : Graph) (t : String) : Set (ℕ ×ₗ ℕ) :=
  {p | ∃ n, g.node? (ofLex p).2 = some n ∧ Reads t n (ofLex p).1}

theorem byRule_eq_none_iff {rule : Rule} :
    byRule g t rule = none ↔ ∀ v n, g.node? v = some n → rule.fits n t = false := by
  rw [byRule, Array.findIdx?_eq_none_iff]
  constructor
  · exact fun none v n here => none n (Array.mem_of_getElem? here)
  · intro none n here
    obtain ⟨v, here⟩ := Array.getElem?_of_mem here
    exact none v n here

theorem exists_node_of_byRule {rule : Rule} {v : ℕ} (found : byRule g t rule = some v) :
    ∃ n, g.node? v = some n ∧ rule.fits n t = true := by
  obtain ⟨inRange, fits, _⟩ := Array.findIdx?_eq_some_iff_getElem.1 found
  exact ⟨_, Array.getElem?_eq_getElem inRange, fits⟩

theorem le_of_byRule {rule : Rule} {v w : ℕ} {n : Node} (found : byRule g t rule = some v)
    (here : g.node? w = some n) (fits : rule.fits n t = true) : v ≤ w := by
  obtain ⟨_, _, first⟩ := Array.findIdx?_eq_some_iff_getElem.1 found
  by_contra before
  obtain ⟨_, rfl⟩ := Array.getElem?_eq_some_iff.1 here
  exact first w (Nat.lt_of_not_le before) fits

/-- **The rules in their order find the least match**, if there is one. -/
theorem findSome?_byRule_cases (g : Graph) (t : String) :
    (Rule.all.findSome? (byRule g t) = none ∧ Matches g t = ∅) ∨
      ∃ k v, Rule.all.findSome? (byRule g t) = some v ∧ IsLeast (Matches g t) (toLex (k, v)) := by
  cases found : Rule.all.findSome? (byRule g t) with
  | none =>
    refine Or.inl ⟨rfl, Set.eq_empty_of_forall_notMem fun p here => ?_⟩
    obtain ⟨n, here, reads⟩ := here
    obtain ⟨rule, _, fits⟩ := reads_iff.1 reads
    have misses := List.findSome?_eq_none_iff.1 found rule (Rule.mem_all rule)
    rw [byRule_eq_none_iff.1 misses _ n here] at fits
    cases fits
  | some v =>
    obtain ⟨before, rule, after, order, atRule, missed⟩ := List.findSome?_eq_some_iff.1 found
    obtain ⟨n, here, fits⟩ := exists_node_of_byRule atRule
    refine Or.inr ⟨rule.number, v, rfl, ⟨n, here, reads_iff.2 ⟨rule, rfl, fits⟩⟩, ?_⟩
    rintro p ⟨m, there, reads⟩
    obtain ⟨other, number, fits'⟩ := reads_iff.1 reads
    have sorted := order ▸ Rule.pairwise_number
    have isRule := order ▸ Rule.mem_all other
    -- A rule before the one that decides fits no node, and one behind it has a greater number.
    rw [Prod.Lex.le_iff, ← number]
    rcases List.mem_append.1 isRule with earlier | here
    · rw [byRule_eq_none_iff.1 (missed other earlier) _ m there] at fits'
      cases fits'
    · rcases List.mem_cons.1 here with rfl | later
      · exact Or.inr ⟨rfl, le_of_byRule atRule there fits'⟩
      · exact Or.inl (List.rel_of_pairwise_cons (List.pairwise_append.1 sorted).2.1 later)

variable {reference : String}

/-- **What a reference is resolved to**: its least match. -/
theorem resolve_eq_ok_iff {v : ℕ} : resolve g reference = .ok v ↔
    Text.trim reference ≠ "" ∧ ∃ k, IsLeast (Matches g (Text.trim reference)) (toLex (k, v)) := by
  unfold resolve
  by_cases empty : Text.trim reference = ""
  · simp [empty]
  · simp only [if_neg empty]
    obtain ⟨none, unmatched⟩ | ⟨k, w, some, least⟩ :=
      findSome?_byRule_cases g (Text.trim reference)
    · rw [none, unmatched]
      refine iff_of_false (fun same => by cases same) ?_
      rintro ⟨_, k, isMatch, _⟩
      exact isMatch
    · rw [some]
      constructor
      · intro same
        cases same
        exact ⟨empty, k, least⟩
      · rintro ⟨_, k', least'⟩
        have same := congrArg ofLex (least.unique least')
        exact congrArg Except.ok (Prod.ext_iff.1 same).2

/-- **When a reference is not resolved**: it is blank, or nothing matches. -/
theorem resolve_eq_error_iff {e : String} : resolve g reference = .error e ↔
    e = Text.trim reference ∧
      (Text.trim reference = "" ∨ Matches g (Text.trim reference) = ∅) := by
  unfold resolve
  by_cases empty : Text.trim reference = ""
  · simp [empty, eq_comm]
  · simp only [empty, if_false, false_or]
    obtain ⟨none, unmatched⟩ | ⟨k, w, some, least⟩ :=
      findSome?_byRule_cases g (Text.trim reference)
    · rw [none, unmatched]
      simp [eq_comm]
    · rw [some]
      refine iff_of_false (fun same => by cases same) ?_
      rintro ⟨_, unmatched⟩
      exact Set.eq_empty_iff_forall_notMem.1 unmatched _ least.1

/-- **A walk fails for want of a symbol** exactly if its reference is not resolved. -/
theorem value_selectSymbol_eq_notFound_iff {plan : Plan} {interrupt : Interrupt} {e : String} :
    (Query.selectSymbol g plan reference interrupt).run.value = .error (.symbolNotFound e) ↔
      resolve g reference = .error e := by
  cases resolved : resolve g reference with
  | error wanted =>
    have value : (Query.selectSymbol g plan reference interrupt).run.value =
        .error (.symbolNotFound wanted) := by
      unfold Query.selectSymbol
      rw [resolved]
      rfl
    rw [value, Except.error.injEq, Except.error.injEq, QueryError.symbolNotFound.injEq]
  | ok start =>
    refine iff_of_false (fun same => ?_) fun same => by cases same
    obtain ⟨_, k, ⟨n, here, _⟩, _⟩ := resolve_eq_ok_iff.1 resolved
    have known : g.contains start = true := decide_eq_true (Graph.lt_of_node? here)
    cases tripped : interrupt.tripped? with
    | some cause =>
      rw [Query.value_selectSymbol_of_tripped resolved known tripped] at same
      cases same
    | none =>
      obtain ⟨flow, value, _⟩ := Query.value_selectSymbol_of_quiet resolved known tripped
      rw [value] at same
      cases same

/-- **A reference names the least match.** Without the blanks around it, it is resolved to a node if that
is read from it in some way, by no node in a more important way, and by no earlier node in the same way;
a query whose reference is blank or matches nothing fails, and names the reference. Qualified names are
taken apart as they are put together, so nothing hangs on where a name has separators of its own. A node
that has a proper id is found by it, whatever the others are called. -/
theorem resolve_is_least (g : Graph) (reference : String) :
    (∀ v, resolve g reference = .ok v ↔ Text.trim reference ≠ "" ∧
      ∃ k, IsLeast (Matches g (Text.trim reference)) (toLex (k, v))) ∧
    (∀ e, resolve g reference = .error e ↔ e = Text.trim reference ∧
      (Text.trim reference = "" ∨ Matches g (Text.trim reference) = ∅)) ∧
    (∀ plan interrupt e,
      (Query.selectSymbol g plan reference interrupt).run.value = .error (.symbolNotFound e) ↔
        resolve g reference = .error e) ∧
    (∀ t qualifier name, isQualified t qualifier name = strips t qualifier name) ∧
    (g.WellFormed → ∀ v n, g.node? v = some n → n.id ≠ "" → Text.trim n.id = n.id →
      resolve g n.id = .ok v) :=
  ⟨fun _ => resolve_eq_ok_iff, fun _ => resolve_eq_error_iff,
    fun _ _ _ => value_selectSymbol_eq_notFound_iff, isQualified_eq_strips,
    fun wf _ _ here nonempty clean => resolve_of_id wf here clean nonempty⟩

/-- A tool with two functions of one name, and a node whose id is that name. -/
def tool : Graph where
  nodes := #[
    { id := "tool/util.main", name := "main", modulePath := some "tool/util",
      moduleName := some "util" },
    { id := "main.main", name := "main", modulePath := some "main", moduleName := some "main" },
    { id := "main", name := "util.main" }]

theorem wellFormed_tool : tool.WellFormed := by decide +kernel

theorem resolve_is_least_tool : tool.WellFormed ∧ resolve tool "main" = .ok 2 ∧
    (∃ k, IsLeast (Matches tool "util.main") (toLex (k, 2))) ∧ Matches tool "tool.main" = ∅ := by
  obtain ⟨named, _, _, _, byId⟩ := resolve_is_least tool " util.main "
  obtain ⟨_, unnamed, _⟩ := resolve_is_least tool "tool.main"
  have found : resolve tool "main" = .ok 2 :=
    byId wellFormed_tool 2 { id := "main", name := "util.main" } rfl (by decide) (by decide)
  have least := ((named 2).1 (by decide +kernel)).2
  have trimmed : Text.trim " util.main " = "util.main" := by decide +kernel
  rw [trimmed] at least
  have missed := ((unnamed "tool.main").1 (by decide +kernel)).2.resolve_left (by decide +kernel)
  have clean : Text.trim "tool.main" = "tool.main" := by decide +kernel
  rw [clean] at missed
  exact ⟨wellFormed_tool, found, least, missed⟩

end CallGraph.Symbol
