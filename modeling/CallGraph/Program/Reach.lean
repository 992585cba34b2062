import CallGraph.Loop
import CallGraph.Program.Resolve
import CallGraph.Seen

/-!
**What a program can reach.**

A method can be called only on a value that some reachable function makes, and a function is
reachable if a reachable one calls it. Both sets grow together: one sweep goes through all calls
from the entry points on and takes up new types on its way, and sweeps are repeated until one finds
nothing new.

* `callees` — the definitions that a definition calls while values of some types are made;
* `Reach` — both sets, `Sweep` — a sweep in progress, `sweep` — a whole one;
* `settle` — sweeps until nothing is new (`sweep_grows`: a sweep forgets nothing);
* `reachable` — both sets at their end, `inOrder` — the definitions of such a pair, in order.
-/

namespace CallGraph.Program

/-- What is known to be reachable. -/
structure Reach where
  /-- Numbers of definitions. -/
  definitions : List Nat := []
  /-- Types of which values are made. -/
  types : List String := []

/-- How many definitions and how many types are known to be reachable. -/
def Reach.size (r : Reach) : Nat × Nat :=
  (r.definitions.length, r.types.length)

/-- A sweep in progress. -/
structure Sweep where
  /-- What is known by now, from earlier sweeps too. -/
  reach : Reach
  /-- The definitions that this sweep has come to. -/
  seen : List Nat := []
  /-- Those that it still has to go through, the next one first. -/
  queue : List Nat := []

namespace Sweep

/-- Comes to a definition. -/
def mark (s : Sweep) (i : Nat) : Sweep where
  reach := { s.reach with definitions := s.reach.definitions.insert i }
  seen := s.seen.insert i
  queue := if i ∈ s.seen then s.queue else s.queue ++ [i]

/-- How many of `n` definitions may still be gone through. -/
def ahead (n : Nat) (s : Sweep) : Nat :=
  missing (List.range n) s.seen + s.queue.length

theorem ahead_mark_le {n i : Nat} (inRange : i < n) (s : Sweep) :
    (s.mark i).ahead n ≤ s.ahead n := by
  by_cases known : i ∈ s.seen
  · simp only [ahead, mark, List.insert_of_mem known, if_pos known]
    exact Nat.le_refl _
  · have fewer : missing (List.range n) (i :: s.seen) < missing (List.range n) s.seen :=
      missing_lt (fun _ => List.mem_cons_of_mem i) (List.mem_range.2 inRange) known
        List.mem_cons_self
    simp only [ahead, mark, List.insert_of_not_mem known, if_neg known, List.length_append,
      List.length_singleton]
    omega

theorem ahead_foldl_mark_le {n : Nat} {is : List Nat} (inRange : ∀ i ∈ is, i < n) (s : Sweep) :
    (is.foldl mark s).ahead n ≤ s.ahead n := by
  induction is generalizing s with
  | nil => exact Nat.le_refl _
  | cons i rest hyp =>
    have later := hyp (fun j here => inRange j (List.mem_cons_of_mem i here)) (s.mark i)
    exact Nat.le_trans later (ahead_mark_le (inRange i List.mem_cons_self) s)

end Sweep

namespace Index

/-- The definitions that a definition calls while values of some types are made. -/
def callees (ix : Index) (made : List String) (i : Nat) : List Nat :=
  match ix.definition? i with
  | none => []
  | some d => d.sites.flatMap fun site =>
    (ix.resolve .rta (some made) d site).filterMap Target.definition?

/-- What is called is a definition of the program. -/
theorem lt_of_mem_callees {ix : Index} {made : List String} {i j : Nat}
    (called : j ∈ ix.callees made i) : j < ix.definitions.size := by
  unfold callees at called
  split at called
  · simp at called
  · simp only [List.mem_flatMap, List.mem_filterMap] at called
    obtain ⟨site, _, target, found, here⟩ := called
    cases target with
    | definition k =>
      cases here
      exact lt_of_mem_resolve found
    | standard _ | external _ | unresolved _ => cases here

/-- The types of which a definition makes values. -/
def makes (ix : Index) (i : Nat) : List String :=
  ((ix.definition? i).map (·.makes)).getD []

/-- All types of which values are made anywhere. -/
def allTypes (ix : Index) : List String :=
  (List.range ix.definitions.size).flatMap ix.makes

theorem mem_allTypes {ix : Index} {i : Nat} {type : String} (made : type ∈ ix.makes i) :
    type ∈ ix.allTypes := by
  refine List.mem_flatMap.2 ⟨i, List.mem_range.2 ?_, made⟩
  by_cases inRange : i < ix.definitions.size
  · exact inRange
  · simp [makes, definition?, Array.getElem?_eq_none (Nat.le_of_not_lt inRange)] at made

/-- Goes through the next definition: first the types that it makes, then what it calls. -/
def advance (ix : Index) (s : Sweep) : Sweep :=
  match s.queue with
  | [] => s
  | i :: rest =>
    let types := addAll s.reach.types (ix.makes i)
    (ix.callees types i).foldl Sweep.mark
      { s with reach := { s.reach with types := types }, queue := rest }

/-- A sweep goes on until its queue is empty. A definition is put there once. -/
def sweepLoop (ix : Index) : Loop Sweep where
  finished s := s.queue.isEmpty
  step := ix.advance
  rank := Sweep.ahead ix.definitions.size
  step_lt s going := by
    obtain ⟨i, rest, waiting⟩ :=
      List.exists_cons_of_ne_nil (l := s.queue) fun empty => by simp [empty] at going
    unfold advance
    rw [waiting]
    refine Nat.lt_of_le_of_lt (Sweep.ahead_foldl_mark_le (fun _ => lt_of_mem_callees) _) ?_
    simp [Sweep.ahead, waiting]

/-- A sweep that has come to the entry points. -/
def startSweep (roots : List Nat) (r : Reach) : Sweep :=
  roots.foldl Sweep.mark { reach := r }

/-- What is known after a sweep from the entry points. -/
def sweep (ix : Index) (roots : List Nat) (r : Reach) : Reach :=
  (ix.sweepLoop.run (startSweep roots r)).reach

/-- Whether what is known later is what was known earlier with new definitions and types. -/
structure Extends (ix : Index) (roots : List Nat) (before after : Reach) : Prop where
  definitions : Grows (roots ++ List.range ix.definitions.size) before.definitions after.definitions
  types : Grows ix.allTypes before.types after.types

namespace Extends

variable {ix : Index} {roots : List Nat} {before between after : Reach}

theorem refl (ix : Index) (roots : List Nat) (r : Reach) : Extends ix roots r r :=
  ⟨Grows.refl _ _, Grows.refl _ _⟩

theorem trans (first : Extends ix roots before between) (second : Extends ix roots between after) :
    Extends ix roots before after :=
  ⟨first.definitions.trans second.definitions, first.types.trans second.types⟩

theorem foldl_mark {is : List Nat} (s : Sweep)
    (listed : ∀ i ∈ is, i ∈ roots ++ List.range ix.definitions.size) :
    Extends ix roots s.reach (is.foldl Sweep.mark s).reach := by
  induction is generalizing s with
  | nil => exact refl _ _ _
  | cons i rest hyp =>
    have here : Extends ix roots s.reach (s.mark i).reach :=
      ⟨Grows.insert (listed i List.mem_cons_self), Grows.refl _ _⟩
    exact here.trans (hyp (s.mark i) fun j inRest => listed j (List.mem_cons_of_mem i inRest))

theorem advance (ix : Index) (roots : List Nat) (s : Sweep) :
    Extends ix roots s.reach (ix.advance s).reach := by
  unfold Index.advance
  split
  · exact refl _ _ _
  · rename_i i rest _
    have made : Extends ix roots s.reach
        { s.reach with types := addAll s.reach.types (ix.makes i) } :=
      ⟨Grows.refl _ _, Grows.addAll fun _ => mem_allTypes⟩
    refine made.trans (foldl_mark { s with
      reach := { s.reach with types := addAll s.reach.types (ix.makes i) }
      queue := rest } fun j called => ?_)
    exact List.mem_append_right _ (List.mem_range.2 (lt_of_mem_callees called))

end Extends

/-- A sweep forgets nothing. -/
theorem sweep_grows (ix : Index) (roots : List Nat) (r : Reach) :
    Extends ix roots r (ix.sweep roots r) := by
  have started : Extends ix roots r (startSweep roots r).reach :=
    Extends.foldl_mark { reach := r } fun _ => List.mem_append_left _
  have kept : ∀ s, ix.sweepLoop.finished s = false → Extends ix roots r s.reach →
      Extends ix roots r (ix.sweepLoop.step s).reach :=
    fun s _ known => known.trans (Extends.advance ix roots s)
  exact ix.sweepLoop.run_keeps kept started

/-- How much has not been found to be reachable yet. -/
def unreached (ix : Index) (roots : List Nat) (r : Reach) : Nat :=
  missing (roots ++ List.range ix.definitions.size) r.definitions + missing ix.allTypes r.types

theorem unreached_lt {ix : Index} {roots : List Nat} {before after : Reach}
    (grows : Extends ix roots before after) (larger : after.size ≠ before.size) :
    ix.unreached roots after < ix.unreached roots before := by
  have definitions := grows.definitions.missing_le
  have types := grows.types.missing_le
  unfold unreached
  by_cases same : after.definitions.length = before.definitions.length
  · have longer : after.types.length ≠ before.types.length :=
      fun equal => larger (by rw [Reach.size, Reach.size, same, equal])
    have := grows.types.missing_lt longer
    omega
  · have := grows.definitions.missing_lt same
    omega

/-- Sweeps until one finds neither a definition nor a type that is new. -/
def settle (ix : Index) (roots : List Nat) (r : Reach) : Reach :=
  let found := ix.sweep roots r
  if _ : found.size = r.size then found else settle ix roots found
termination_by ix.unreached roots r
decreasing_by
  rename_i larger
  exact unreached_lt (ix.sweep_grows roots r) larger

/-- What is reachable from the entry points. -/
def reachable (ix : Index) (roots : List Nat) : Reach :=
  ix.settle roots {}

/-- The definitions among those that are known to be reachable, in order. -/
def inOrder (ix : Index) (r : Reach) : List Nat :=
  (List.range ix.definitions.size).filter r.definitions.contains

end Index

end CallGraph.Program
