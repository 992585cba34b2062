import CallGraph.Source.Facts
import Mathlib.Data.List.Forall2

/-!
**Conditions are formulas.**

A condition is put together by `not`, `all` and `any` from leaves: that tests are included, that a
feature is switched on, or something about the platform. `not` takes one condition, the others take
any number of them.

* `Formula`, `Formula.Holds` — formulas over leaves, and their truth for given leaves;
* `Condition.formula?` — the formula that a condition is written for;
* `holds_iff_of_formula?` — a condition is evaluated to the truth of its formula, whatever the
  leaves are;
* `Switch` — the leaves about tests and features, `Condition.other?` — those about anything else.
-/

namespace CallGraph.Source

/-! ### Formulas -/

/-- **A formula over leaves.** -/
inductive Formula (α : Type) where
  | leaf (a : α)
  | not (f : Formula α)
  | all (fs : List (Formula α))
  | any (fs : List (Formula α))

namespace Formula

variable {α : Type}

/-- **The truth of a formula**, given that of its leaves. -/
def Holds (v : α → Prop) : Formula α → Prop
  | leaf a => v a
  | not f => ¬f.Holds v
  | all fs => ∀ f ∈ fs, f.Holds v
  | any fs => ∃ f, ∃ _ : f ∈ fs, f.Holds v

variable {v : α → Prop}

@[simp] theorem holds_leaf (a : α) : (leaf a).Holds v ↔ v a := by
  rw [Holds]

@[simp] theorem holds_not (f : Formula α) : (not f).Holds v ↔ ¬f.Holds v := by
  rw [Holds]

@[simp] theorem holds_all (fs : List (Formula α)) : (all fs).Holds v ↔ ∀ f ∈ fs, f.Holds v := by
  rw [Holds]

@[simp] theorem holds_any (fs : List (Formula α)) : (any fs).Holds v ↔ ∃ f ∈ fs, f.Holds v := by
  simp only [Holds, exists_prop]

mutual

/-- The truth of a formula can be decided if that of its leaves can. -/
def decideHolds (v : α → Prop) [DecidablePred v] : (f : Formula α) → Decidable (f.Holds v)
  | leaf a => decidable_of_iff (v a) (holds_leaf a).symm
  | not f => @decidable_of_iff _ _ (holds_not f).symm (@instDecidableNot _ (decideHolds v f))
  | all fs => @decidable_of_iff _ _ (holds_all fs).symm (decideAll v fs)
  | any fs => @decidable_of_iff _ _ (holds_any fs).symm (decideAny v fs)

def decideAll (v : α → Prop) [DecidablePred v] :
    (fs : List (Formula α)) → Decidable (∀ f ∈ fs, f.Holds v)
  | [] => isTrue fun _ here => absurd here List.not_mem_nil
  | f :: rest =>
    @decidable_of_iff _ _ List.forall_mem_cons.symm
      (@instDecidableAnd _ _ (decideHolds v f) (decideAll v rest))

def decideAny (v : α → Prop) [DecidablePred v] :
    (fs : List (Formula α)) → Decidable (∃ f ∈ fs, f.Holds v)
  | [] => isFalse fun ⟨_, here, _⟩ => absurd here List.not_mem_nil
  | f :: rest =>
    @decidable_of_iff _ _ (List.exists_mem_cons_iff (fun g => Holds v g) f rest).symm
      (@instDecidableOr _ _ (decideHolds v f) (decideAny v rest))

end

instance (v : α → Prop) [DecidablePred v] : DecidablePred fun f : Formula α => f.Holds v :=
  decideHolds v

/-- What `not` says of a list of formulas: it takes exactly one. -/
def negation? : List (Formula α) → Option (Formula α)
  | [f] => some (not f)
  | _ => none

end Formula

/-! ### Reading conditions -/

section Reading

variable {α : Type} (leaf? : Condition → Option α)

mutual

/-- **The formula that a condition is written for**, given what its leaves are. -/
def Condition.formula? : Condition → Option (Formula α)
  | .word name => (leaf? (.word name)).map .leaf
  | .value name text => (leaf? (.value name text)).map .leaf
  | .list name none => (leaf? (.list name none)).map .leaf
  | .list name (some conditions) =>
    let word := name.map (·.text)
    if word = some "not" then (Condition.formulas? conditions).bind Formula.negation?
    else if word = some "all" then (Condition.formulas? conditions).map .all
    else if word = some "any" then (Condition.formulas? conditions).map .any
    else (leaf? (.list name (some conditions))).map .leaf

/-- The formulas that the conditions of a list are written for. -/
def Condition.formulas? : List Condition → Option (List (Formula α))
  | [] => some []
  | c :: rest =>
    (Condition.formula? c).bind fun f => (Condition.formulas? rest).map fun fs => f :: fs

end

end Reading

/-! ### Evaluation -/

variable {on : Features}

theorem Condition.allHold_iff {cs : List Condition} :
    Condition.allHold on cs = true ↔ ∀ c ∈ cs, c.holds on = true := by
  induction cs with
  | nil => simp [Condition.allHold]
  | cons c rest hyp => rw [Condition.allHold, Bool.and_eq_true, hyp, List.forall_mem_cons]

theorem Condition.anyHolds_iff {cs : List Condition} :
    Condition.anyHolds on cs = true ↔ ∃ c ∈ cs, c.holds on = true := by
  induction cs with
  | nil => simp [Condition.anyHolds]
  | cons c rest hyp =>
    rw [Condition.anyHolds, Bool.or_eq_true, hyp, List.exists_mem_cons_iff]

variable {α : Type} {leaf? : Condition → Option α} {v : α → Prop}

/-- A condition is evaluated to the truth of a formula. -/
def Condition.Means (on : Features) (v : α → Prop) (c : Condition) (f : Formula α) : Prop :=
  c.holds on = true ↔ f.Holds v

/-- A negated list of one condition means the negation of its formula. -/
theorem Condition.means_negation {cs : List Condition} {fs : List (Formula α)} {f : Formula α}
    (each : List.Forall₂ (Condition.Means on v) cs fs) (reads : Formula.negation? fs = some f) :
    (!Condition.firstHolds on cs) = true ↔ f.Holds v := by
  unfold Formula.negation? at reads
  split at reads
  · rename_i only
    cases reads
    cases each with
    | @cons c _ _ _ means _ =>
      have means : c.holds on = true ↔ only.Holds v := means
      rw [Condition.firstHolds, Bool.not_eq_true', ← Bool.not_eq_true, means, Formula.holds_not]
  · cases reads

theorem forall_mem_iff_of_forall₂ {β γ : Type} {p : β → Prop} {q : γ → Prop} {bs : List β}
    {cs : List γ} (each : List.Forall₂ (fun b c => p b ↔ q c) bs cs) :
    (∀ b ∈ bs, p b) ↔ ∀ c ∈ cs, q c := by
  induction each with
  | nil => simp
  | cons same _ hyp => rw [List.forall_mem_cons, List.forall_mem_cons, same, hyp]

theorem exists_mem_iff_of_forall₂ {β γ : Type} {p : β → Prop} {q : γ → Prop} {bs : List β}
    {cs : List γ} (each : List.Forall₂ (fun b c => p b ↔ q c) bs cs) :
    (∃ b ∈ bs, p b) ↔ ∃ c ∈ cs, q c := by
  induction each with
  | nil => simp
  | cons same _ hyp => rw [List.exists_mem_cons_iff, List.exists_mem_cons_iff, same, hyp]

mutual

/-- **A condition is evaluated to the truth of its formula**, if its leaves are evaluated to their
truth. -/
theorem Condition.holds_iff_of_formula?
    (leaves : ∀ c a, leaf? c = some a → (c.holds on = true ↔ v a)) (c : Condition) {f : Formula α}
    (reads : c.formula? leaf? = some f) : c.holds on = true ↔ f.Holds v := by
  match c with
  | .word _ | .value _ _ | .list _ none =>
    rw [formula?] at reads
    obtain ⟨a, known, rfl⟩ := Option.map_eq_some_iff.1 reads
    rw [Formula.holds_leaf]
    exact leaves _ a known
  | .list name (some conditions) =>
    -- The reading and the evaluation ask for the same three names in the same order.
    rw [formula?] at reads
    split at reads
    · rename_i isNot
      obtain ⟨fs, read, reads⟩ := Option.bind_eq_some_iff.1 reads
      rw [holds, if_pos isNot]
      exact means_negation (Condition.means_of_formulas? leaves conditions read) reads
    · rename_i notNot
      split at reads
      · rename_i isAll
        obtain ⟨fs, read, rfl⟩ := Option.map_eq_some_iff.1 reads
        rw [holds, if_neg notNot, if_pos isAll, allHold_iff, Formula.holds_all]
        exact forall_mem_iff_of_forall₂ (Condition.means_of_formulas? leaves conditions read)
      · rename_i notAll
        split at reads
        · rename_i isAny
          obtain ⟨fs, read, rfl⟩ := Option.map_eq_some_iff.1 reads
          rw [holds, if_neg notNot, if_neg notAll, if_pos isAny, anyHolds_iff, Formula.holds_any]
          exact exists_mem_iff_of_forall₂ (Condition.means_of_formulas? leaves conditions read)
        · obtain ⟨a, known, rfl⟩ := Option.map_eq_some_iff.1 reads
          rw [Formula.holds_leaf]
          exact leaves _ a known

theorem Condition.means_of_formulas?
    (leaves : ∀ c a, leaf? c = some a → (c.holds on = true ↔ v a)) (cs : List Condition)
    {fs : List (Formula α)} (reads : Condition.formulas? leaf? cs = some fs) :
    List.Forall₂ (Condition.Means on v) cs fs := by
  match cs with
  | [] =>
    cases reads
    exact .nil
  | c :: rest =>
    rw [formulas?] at reads
    obtain ⟨f, first, reads⟩ := Option.bind_eq_some_iff.1 reads
    obtain ⟨others, later, rfl⟩ := Option.map_eq_some_iff.1 reads
    exact .cons (Condition.holds_iff_of_formula? leaves c first)
      (Condition.means_of_formulas? leaves rest later)

end

/-! ### Leaves -/

/-- **What can be switched on.** -/
inductive Switch where
  /-- That tests are included. -/
  | tests
  | feature (name : String)
  deriving DecidableEq, Repr

namespace Switch

/-- Whether a switch is on. -/
def On (on : Features) : Switch → Prop
  | tests => on.tests = true
  | feature name => name ∈ on.names

instance (on : Features) : DecidablePred (On on)
  | tests => inferInstanceAs (Decidable (on.tests = true))
  | feature name => inferInstanceAs (Decidable (name ∈ on.names))

/-- The switch that a condition is about: `test`, or a feature by its name. -/
def of? : Condition → Option Switch
  | .word name => if name.map (·.text) = some "test" then some tests else none
  | .value name text => if name.map (·.text) = some "feature" then text.map feature else none
  | .list _ _ => none

/-- A condition about a switch is evaluated to whether that is on. -/
theorem holds_iff_on (c : Condition) (s : Switch) (known : of? c = some s) :
    c.holds on = true ↔ s.On on := by
  cases c with
  | word name =>
    rw [of?] at known
    split at known
    · rename_i isTest
      cases known
      rw [Condition.holds, isTest, bne_self_eq_false, Bool.false_or, On]
    · cases known
  | value name text =>
    rw [of?] at known
    split at known
    · rename_i isFeature
      obtain ⟨feature, rfl, rfl⟩ := Option.map_eq_some_iff.1 known
      rw [Condition.holds, if_pos isFeature, On]
      exact List.contains_iff_mem
    · cases known
  | list => cases known

end Switch

/-- The names by which conditions are put together. -/
def connectives : List String :=
  ["not", "all", "any"]

/-- A condition that is neither about a switch nor put together from others: about the platform, or
about the way in which a program is built. -/
def Condition.other? (c : Condition) : Option Condition :=
  match c with
  | .word name => if name.map (·.text) = some "test" then none else some c
  | .value name _ => if name.map (·.text) = some "feature" then none else some c
  | .list name _ => if (name.map (·.text)).any connectives.contains then none else some c

/-- A condition about anything else counts as true. -/
theorem Condition.holds_of_other? (c a : Condition) (known : c.other? = some a) :
    c.holds on = true := by
  unfold other? at known
  cases c with
  | word name =>
    dsimp only at known
    split at known
    · cases known
    · rename_i notTest
      rw [holds, bne_iff_ne.2 notTest, Bool.true_or]
  | value name text =>
    dsimp only at known
    split at known
    · cases known
    · rename_i notFeature
      rw [holds, if_neg notFeature]
  | list name conditions =>
    dsimp only at known
    split at known
    · cases known
    · rename_i plain
      cases conditions with
      | none => rw [holds]
      | some conditions =>
        have unlike {text : String} (here : text ∈ connectives) : name.map (·.text) ≠ some text := by
          intro same
          rw [same] at plain
          exact plain (List.contains_iff_mem.2 here)
        rw [holds, if_neg (unlike (by decide)), if_neg (unlike (by decide)),
          if_neg (unlike (by decide))]

end CallGraph.Source
