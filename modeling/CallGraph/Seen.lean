/-!
**What a search has seen.**

Searches collect what they come to in lists that hold everything once. There is only so much to be
seen, so a list that grows leaves less for later.

* `missing` — how much of a finite list has not been seen yet (`missing_lt`);
* `addAll` — a list with more elements;
* `Grows` — how a list that only takes up new elements of a finite list is related to what it was.
-/

namespace CallGraph

variable {α : Type}

/-! ### What is left to be seen -/

section

variable [DecidableEq α]

/-- How many entries of a list are not among those seen. -/
def missing (everything seen : List α) : Nat :=
  everything.countP fun a => decide (a ∉ seen)

/-- Seeing more leaves no more unseen. -/
theorem missing_le {everything seen more : List α} (grows : ∀ b ∈ seen, b ∈ more) :
    missing everything more ≤ missing everything seen := by
  unfold missing
  refine List.countP_mono_left fun b _ => ?_
  simp only [decide_eq_true_eq]
  exact fun outside inSeen => outside (grows b inSeen)

/-- Seeing more leaves fewer unseen if something new is among it. -/
theorem missing_lt {everything seen more : List α} {a : α}
    (grows : ∀ b ∈ seen, b ∈ more) (listed : a ∈ everything) (new : a ∉ seen) (found : a ∈ more) :
    missing everything more < missing everything seen := by
  induction everything with
  | nil => simp at listed
  | cons b rest hyp =>
    have fewer : missing rest more ≤ missing rest seen := missing_le grows
    unfold missing at hyp fewer ⊢
    rw [List.countP_cons, List.countP_cons]
    rcases List.mem_cons.1 listed with same | inRest
    · rw [if_neg (by simp [← same, found]), if_pos (by simp [← same, new])]
      omega
    · have := hyp inRest
      by_cases outside : b ∈ more
      · rw [if_neg (by simp [outside])]
        split <;> omega
      · have outsideToo : b ∉ seen := fun inSeen => outside (grows b inSeen)
        rw [if_pos (by simp [outside]), if_pos (by simp [outsideToo])]
        omega

/-- A list with more elements; those that it has are not added again. -/
def addAll (set more : List α) : List α :=
  more.foldl (fun set a => set.insert a) set

@[simp] theorem mem_addAll {set more : List α} {a : α} :
    a ∈ addAll set more ↔ a ∈ set ∨ a ∈ more := by
  induction more generalizing set with
  | nil => simp [addAll]
  | cons b rest hyp =>
    show a ∈ addAll (set.insert b) rest ↔ _
    rw [hyp, List.mem_insert_iff, List.mem_cons]
    exact or_assoc.trans or_left_comm

end

/-! ### Lists that only take up new elements -/

/-- The later of two lists is the earlier one with new elements of a finite list in front. -/
def Grows (everything before after : List α) : Prop :=
  ∃ fresh, after = fresh ++ before ∧ ∀ a ∈ fresh, a ∈ everything ∧ a ∉ before

namespace Grows

variable {everything before between after : List α}

theorem refl (everything before : List α) : Grows everything before before :=
  ⟨[], rfl, by simp⟩

theorem trans (first : Grows everything before between) (second : Grows everything between after) :
    Grows everything before after := by
  obtain ⟨early, rfl, newEarly⟩ := first
  obtain ⟨late, rfl, newLate⟩ := second
  refine ⟨late ++ early, (List.append_assoc ..).symm, fun a here => ?_⟩
  rcases List.mem_append.1 here with inLate | inEarly
  · have := newLate a inLate
    exact ⟨this.1, fun inBefore => this.2 (List.mem_append_right _ inBefore)⟩
  · exact newEarly a inEarly

theorem subset (grows : Grows everything before after) {a : α} (here : a ∈ before) :
    a ∈ after := by
  obtain ⟨fresh, rfl, _⟩ := grows
  exact List.mem_append_right _ here

/-- A list that has not become longer is the same. -/
theorem eq_of_length (grows : Grows everything before after)
    (same : after.length = before.length) : after = before := by
  obtain ⟨fresh, rfl, _⟩ := grows
  have none : fresh = [] := by
    rw [List.length_append] at same
    exact List.eq_nil_of_length_eq_zero (by omega)
  rw [none, List.nil_append]

variable [DecidableEq α]

theorem insert {a : α} (listed : a ∈ everything) : Grows everything before (before.insert a) := by
  by_cases known : a ∈ before
  · rw [List.insert_of_mem known]
    exact refl _ _
  · rw [List.insert_of_not_mem known]
    refine ⟨[a], rfl, fun b here => ?_⟩
    rw [List.mem_singleton.1 here]
    exact ⟨listed, known⟩

theorem addAll {more : List α} (listed : ∀ a ∈ more, a ∈ everything) :
    Grows everything before (addAll before more) := by
  induction more generalizing before with
  | nil => exact refl _ _
  | cons b rest hyp =>
    exact (insert (listed b List.mem_cons_self)).trans
      (hyp fun a here => listed a (List.mem_cons_of_mem b here))

theorem missing_le (grows : Grows everything before after) :
    missing everything after ≤ missing everything before :=
  CallGraph.missing_le fun _ => grows.subset

/-- A list that has become longer leaves less unseen. -/
theorem missing_lt (grows : Grows everything before after)
    (longer : after.length ≠ before.length) :
    missing everything after < missing everything before := by
  have sub := fun a => grows.subset (a := a)
  obtain ⟨fresh, rfl, new⟩ := grows
  obtain ⟨a, here⟩ : ∃ a, a ∈ fresh := by
    refine List.exists_mem_of_ne_nil _ fun none => longer ?_
    rw [none, List.nil_append]
  exact CallGraph.missing_lt sub (new a here).1 (new a here).2 (List.mem_append_left _ here)

end Grows

end CallGraph
