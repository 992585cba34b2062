import CallGraph.Program.Reach
import Mathlib.Logic.Function.Iterate

/-!
**What can be reached is the least closed pair.**

The theory of `reachable`. A pair of definitions and types is closed if nothing that its definitions
make or call lies outside it. The more types a pair has, the more a call may mean, so what a sweep
finds lies in every closed pair; and a sweep that finds nothing new has gone through all that it
knows with all the types that there are, so that what it knows is closed.

* `Closed`, `Least` — closed pairs, and the smallest of them;
* `definition_mem_resolve_mono` — with more types a call refers to more definitions;
* `sweep_subset` — a sweep stays in every closed pair;
* `closed_of_size` — a sweep that finds nothing new ends in a closed pair;
* `settle_eq_iterate` — sweeps are repeated until, for the first time, one finds nothing new;
* `least_reachable` — what is reachable is the least closed pair.
-/

namespace CallGraph.Program.Index

open Source (Definition Site)

/-- **A pair that nothing leads out of**: it has the entry points, the types that its definitions
make, and the definitions that these call while values of its types are made. -/
structure Closed (ix : Index) (roots : List Nat) (r : Reach) : Prop where
  roots : ∀ i ∈ roots, i ∈ r.definitions
  made : ∀ i ∈ r.definitions, ∀ d, ix.definition? i = some d → ∀ type ∈ d.makes, type ∈ r.types
  called : ∀ i ∈ r.definitions, ∀ d, ix.definition? i = some d → ∀ site ∈ d.sites, ∀ j,
    .definition j ∈ ix.resolve .rta (some r.types) d site → j ∈ r.definitions

/-- **The least closed pair.** -/
structure Least (ix : Index) (roots : List Nat) (r : Reach) : Prop where
  closed : ix.Closed roots r
  least : ∀ other, ix.Closed roots other →
    r.definitions ⊆ other.definitions ∧ r.types ⊆ other.types

variable {ix : Index} {roots : List Nat}

theorem mem_makes {i : Nat} {type : String} :
    type ∈ ix.makes i ↔ ∃ d, ix.definition? i = some d ∧ type ∈ d.makes := by
  unfold makes
  cases ix.definition? i <;> simp

theorem mem_callees {made : List String} {i j : Nat} :
    j ∈ ix.callees made i ↔ ∃ d, ix.definition? i = some d ∧
      ∃ site ∈ d.sites, .definition j ∈ ix.resolve .rta (some made) d site := by
  have target : ∀ t : Target, t.definition? = some j ↔ t = .definition j := by
    intro t
    cases t <;> simp [Target.definition?]
  unfold callees
  cases ix.definition? i with
  | none => simp
  | some d => simp [target]

/-- Closed pairs in terms of what a definition makes and calls. -/
theorem closed_iff {r : Reach} :
    ix.Closed roots r ↔ roots ⊆ r.definitions ∧ ∀ i ∈ r.definitions,
      ix.makes i ⊆ r.types ∧ ix.callees r.types i ⊆ r.definitions := by
  constructor
  · intro closed
    refine ⟨fun i root => closed.roots i root, fun i here => ⟨fun type made => ?_, fun j called => ?_⟩⟩
    · obtain ⟨d, found, made⟩ := mem_makes.1 made
      exact closed.made i here d found type made
    · obtain ⟨d, found, site, inSites, means⟩ := mem_callees.1 called
      exact closed.called i here d found site inSites j means
  · rintro ⟨started, kept⟩
    refine ⟨fun i root => started root, fun i here d found type made => ?_,
      fun i here d found site inSites j means => ?_⟩
    · exact (kept i here).1 (mem_makes.2 ⟨d, found, made⟩)
    · exact (kept i here).2 (mem_callees.2 ⟨d, found, site, inSites, means⟩)

/-! ### More types, more calls -/

theorem isMade_mono {types more : List String} (grows : types ⊆ more) {d : Definition}
    (made : ix.isMade types d = true) : ix.isMade more d = true := by
  unfold isMade at made ⊢
  dsimp only at made ⊢
  split
  · rename_i default
    rw [if_pos default, List.any_eq_true] at made
    obtain ⟨pair, implements, both⟩ := made
    rw [Bool.and_eq_true, List.contains_iff_mem] at both
    rw [List.any_eq_true]
    refine ⟨pair, implements, ?_⟩
    rw [Bool.and_eq_true, List.contains_iff_mem]
    exact ⟨both.1, grows both.2⟩
  · rename_i own
    rw [if_neg own, List.contains_iff_mem] at made
    rw [List.contains_iff_mem]
    exact grows made

theorem methodChoices_mono {types more : List String} (grows : types ⊆ more) (name : String) :
    ix.methodChoices .rta (some types) name ⊆ ix.methodChoices .rta (some more) name := by
  intro i here
  obtain ⟨named, made⟩ := List.mem_filter.1 here
  obtain ⟨d, found, made⟩ := (Option.any_eq_true _ _).1 made
  exact List.mem_filter.2 ⟨named, (Option.any_eq_true _ _).2 ⟨d, found, isMade_mono grows made⟩⟩

theorem methodTargets_mono {types more : List String} (grows : types ⊆ more) (d : Definition)
    (name : String) (onSelf : Bool) :
    ix.methodTargets .rta (some types) d name onSelf ⊆
      ix.methodTargets .rta (some more) d name onSelf := by
  unfold methodTargets
  split
  · exact methodChoices_mono grows name
  · exact List.Subset.refl _

/-- **With more types a call refers to more definitions**, also where it referred to nothing. -/
theorem definition_mem_resolve_mono {types more : List String} (grows : types ⊆ more)
    {d : Definition} {site : Site} {j : Nat}
    (means : .definition j ∈ ix.resolve .rta (some types) d site) :
    .definition j ∈ ix.resolve .rta (some more) d site := by
  unfold resolve at means ⊢
  cases same : site.target with
  | path names | argument names | expansion names =>
    rw [same] at means
    exact means
  | method name onSelf =>
    rw [same] at means
    obtain ⟨k, here, equal⟩ := List.mem_map.1 (Target.definition_mem_orUnresolved.1 means)
    refine Target.definition_mem_orUnresolved.2 (List.mem_map.2 ⟨k, ?_, equal⟩)
    exact methodTargets_mono grows d name onSelf here

theorem callees_mono {types more : List String} (grows : types ⊆ more) (i : Nat) :
    ix.callees types i ⊆ ix.callees more i := by
  intro j called
  obtain ⟨d, found, site, inSites, means⟩ := mem_callees.1 called
  exact mem_callees.2 ⟨d, found, site, inSites, definition_mem_resolve_mono grows means⟩

/-! ### The steps of a sweep -/

/-- What a sweep is after it has come to some definitions. -/
structure Marked (is : List Nat) (s s' : Sweep) : Prop where
  definitions : ∀ j, j ∈ s'.reach.definitions ↔ j ∈ s.reach.definitions ∨ j ∈ is
  types : s'.reach.types = s.reach.types
  seen : ∀ j, j ∈ s'.seen ↔ j ∈ s.seen ∨ j ∈ is
  queue : ∀ j, j ∈ s'.queue ↔ j ∈ s.queue ∨ (j ∈ is ∧ j ∉ s.seen)

theorem marked_mark (i : Nat) (s : Sweep) : Marked [i] s (s.mark i) := by
  refine ⟨fun j => ?_, rfl, fun j => ?_, fun j => ?_⟩
  · show j ∈ s.reach.definitions.insert i ↔ _
    rw [List.mem_insert_iff, List.mem_singleton, or_comm]
  · show j ∈ s.seen.insert i ↔ _
    rw [List.mem_insert_iff, List.mem_singleton, or_comm]
  · rw [List.mem_singleton]
    unfold Sweep.mark
    by_cases known : i ∈ s.seen
    · rw [if_pos known]
      exact ⟨Or.inl, fun here => here.resolve_right fun new => new.2 (new.1 ▸ known)⟩
    · rw [if_neg known, List.mem_append, List.mem_singleton]
      exact or_congr_right ⟨fun same => ⟨same, same ▸ known⟩, And.left⟩

theorem marked_foldl (is : List Nat) (s : Sweep) : Marked is s (is.foldl Sweep.mark s) := by
  induction is generalizing s with
  | nil => exact ⟨by simp, rfl, by simp, by simp⟩
  | cons i rest hyp =>
    have first := marked_mark i s
    have later := hyp (s.mark i)
    refine ⟨fun j => ?_, later.types.trans first.types, fun j => ?_, fun j => ?_⟩
    · rw [List.foldl_cons, later.definitions, first.definitions, List.mem_singleton, List.mem_cons,
        or_assoc]
    · rw [List.foldl_cons, later.seen, first.seen, List.mem_singleton, List.mem_cons, or_assoc]
    · rw [List.foldl_cons, later.queue, first.queue, first.seen, List.mem_singleton, List.mem_cons]
      by_cases same : j = i
      · simp [same]
      · simp [same]

/-! ### Nothing unreachable is found -/

/-- All that a sweep knows and waits for lies in a pair. -/
structure Inside (r : Reach) (s : Sweep) : Prop where
  definitions : s.reach.definitions ⊆ r.definitions
  types : s.reach.types ⊆ r.types
  queue : s.queue ⊆ r.definitions

theorem Marked.inside {r : Reach} {is : List Nat} {s s' : Sweep} (marked : Marked is s s')
    (inside : Inside r s) (listed : is ⊆ r.definitions) : Inside r s' := by
  refine ⟨fun j here => ?_, ?_, fun j here => ?_⟩
  · exact ((marked.definitions j).1 here).elim (fun old => inside.definitions old)
      (fun new => listed new)
  · rw [marked.types]
    exact inside.types
  · exact ((marked.queue j).1 here).elim (fun old => inside.queue old) (fun new => listed new.1)

/-- A step stays in a closed pair. -/
theorem inside_advance {r : Reach} (closed : ix.Closed roots r) {s : Sweep} (inside : Inside r s) :
    Inside r (ix.advance s) := by
  unfold advance
  split
  · exact inside
  · rename_i i rest waiting
    have here : i ∈ r.definitions := inside.queue (waiting ▸ List.mem_cons_self)
    obtain ⟨made, called⟩ := (closed_iff.1 closed).2 i here
    have types : addAll s.reach.types (ix.makes i) ⊆ r.types := fun type known =>
      (mem_addAll.1 known).elim (fun old => inside.types old) (fun new => made new)
    refine (marked_foldl _ _).inside ⟨inside.definitions, types, fun j inRest => ?_⟩ fun j new => ?_
    · exact inside.queue (waiting ▸ List.mem_cons_of_mem i inRest)
    · exact called (callees_mono types i new)

/-- **A sweep stays in every closed pair.** -/
theorem sweep_subset {r known : Reach} (closed : ix.Closed roots r)
    (definitions : known.definitions ⊆ r.definitions) (types : known.types ⊆ r.types) :
    (ix.sweep roots known).definitions ⊆ r.definitions ∧
      (ix.sweep roots known).types ⊆ r.types := by
  have started : Inside r (startSweep roots known) :=
    (marked_foldl roots { reach := known }).inside ⟨definitions, types, List.nil_subset _⟩
      (closed_iff.1 closed).1
  have kept : ∀ s, ix.sweepLoop.finished s = false → Inside r s →
      Inside r (ix.sweepLoop.step s) := fun _ _ => inside_advance closed
  have done := ix.sweepLoop.run_keeps kept started
  exact ⟨done.definitions, done.types⟩

/-! ### Nothing reachable is missed -/

/-- **What holds of every state of a sweep** that began with some types: whatever it has come to
waits, or the sweep has taken up what it makes and come to what it calls with these types. -/
structure Swept (ix : Index) (roots : List Nat) (before : List String) (s : Sweep) : Prop where
  roots : roots ⊆ s.seen
  definitions : s.seen ⊆ s.reach.definitions
  types : before ⊆ s.reach.types
  through : ∀ i ∈ s.seen, i ∈ s.queue ∨
    (ix.makes i ⊆ s.reach.types ∧ ix.callees before i ⊆ s.seen)

theorem swept_start (ix : Index) (roots : List Nat) (r : Reach) :
    ix.Swept roots r.types (startSweep roots r) := by
  have marked := marked_foldl roots { reach := r }
  refine ⟨fun i root => (marked.seen i).2 (Or.inr root), fun i here => ?_, ?_, fun i here => ?_⟩
  · refine (marked.definitions i).2 (Or.inr ?_)
    exact ((marked.seen i).1 here).resolve_left List.not_mem_nil
  · exact fun type known => marked.types.symm ▸ known
  · have root := ((marked.seen i).1 here).resolve_left List.not_mem_nil
    exact Or.inl ((marked.queue i).2 (Or.inr ⟨root, List.not_mem_nil⟩))

/-- A step keeps the invariant. Types that are taken up on the way only add to what is called. -/
theorem swept_advance {before : List String} {s : Sweep} (known : ix.Swept roots before s) :
    ix.Swept roots before (ix.advance s) := by
  unfold advance
  split
  · exact known
  · rename_i i rest waiting
    have taken : ∀ type, type ∈ s.reach.types ∨ type ∈ ix.makes i →
        type ∈ addAll s.reach.types (ix.makes i) := fun _ => mem_addAll.2
    have marked := marked_foldl (ix.callees (addAll s.reach.types (ix.makes i)) i)
      { s with reach := { s.reach with types := addAll s.reach.types (ix.makes i) }, queue := rest }
    have called : ix.callees before i ⊆ ix.callees (addAll s.reach.types (ix.makes i)) i :=
      callees_mono (fun type here => taken type (Or.inl (known.types here))) i
    refine ⟨fun j root => (marked.seen j).2 (Or.inl (known.roots root)), fun j here => ?_,
      fun type here => ?_, fun j here => ?_⟩
    · refine (marked.definitions j).2 (((marked.seen j).1 here).imp_left ?_)
      exact fun old => known.definitions old
    · rw [marked.types]
      exact taken type (Or.inl (known.types here))
    · rw [marked.queue, marked.types]
      by_cases old : j ∈ s.seen
      · -- It was known before: it still waits, is the one gone through now, or was earlier.
        rcases known.through j old with waits | ⟨made, earlier⟩
        · rw [waiting, List.mem_cons] at waits
          rcases waits with same | inRest
          · rw [same]
            refine Or.inr ⟨fun type new => taken type (Or.inr new), fun k new => ?_⟩
            exact (marked.seen k).2 (Or.inr (called new))
          · exact Or.inl (Or.inl inRest)
        · refine Or.inr ⟨fun type new => taken type (Or.inl (made new)), fun k new => ?_⟩
          exact (marked.seen k).2 (Or.inl (earlier new))
      · exact Or.inl (Or.inr ⟨((marked.seen j).1 here).resolve_left old, old⟩)

/-- The end of a sweep. -/
theorem swept_sweep (ix : Index) (roots : List Nat) (r : Reach) :
    ∃ s, s.reach = ix.sweep roots r ∧ s.queue = [] ∧ ix.Swept roots r.types s := by
  have kept : ∀ s, ix.sweepLoop.finished s = false → ix.Swept roots r.types s →
      ix.Swept roots r.types (ix.sweepLoop.step s) := fun _ _ => swept_advance
  exact ⟨_, rfl, List.isEmpty_iff.1 (ix.sweepLoop.finished_run _),
    ix.sweepLoop.run_keeps kept (swept_start ix roots r)⟩

/-- A sweep after which the numbers are the same has found nothing. -/
theorem sweep_eq_of_size {r : Reach} (same : (ix.sweep roots r).size = r.size) :
    ix.sweep roots r = r := by
  have grows := ix.sweep_grows roots r
  have definitions := grows.definitions.eq_of_length (congrArg Prod.fst same)
  have types := grows.types.eq_of_length (congrArg Prod.snd same)
  cases found : ix.sweep roots r
  rw [found] at definitions types
  cases r
  exact congr (congrArg Reach.mk definitions) types

/-- **A sweep that finds nothing new ends in a closed pair**, if it began in every closed one: what
it has come to is closed, so that nothing else was known. -/
theorem closed_of_size {r : Reach}
    (below : ∀ other, ix.Closed roots other → r.definitions ⊆ other.definitions)
    (same : (ix.sweep roots r).size = r.size) : ix.Closed roots r := by
  obtain ⟨s, reach, done, swept⟩ := ix.swept_sweep roots r
  rw [sweep_eq_of_size same] at reach
  have through : ∀ i ∈ s.seen, ix.makes i ⊆ r.types ∧ ix.callees r.types i ⊆ s.seen := by
    intro i here
    have dealt := (swept.through i here).resolve_left (done ▸ List.not_mem_nil)
    rwa [reach] at dealt
  have all : r.definitions ⊆ s.seen := below ⟨s.seen, r.types⟩ (closed_iff.2 ⟨swept.roots, through⟩)
  have known : s.seen ⊆ r.definitions := reach ▸ swept.definitions
  refine closed_iff.2 ⟨fun i root => known (swept.roots root), fun i here => ?_⟩
  exact ⟨(through i (all here)).1, fun j called => known ((through i (all here)).2 called)⟩

/-! ### Repeated sweeps -/

/-- **Sweeps are repeated until one finds nothing new**, and no longer. -/
theorem settle_eq_iterate (ix : Index) (roots : List Nat) (r : Reach) :
    ∃ k, ix.settle roots r = (ix.sweep roots)^[k + 1] r ∧
      ((ix.sweep roots)^[k + 1] r).size = ((ix.sweep roots)^[k] r).size ∧
      ∀ j < k, ((ix.sweep roots)^[j + 1] r).size ≠ ((ix.sweep roots)^[j] r).size := by
  induction r using settle.induct ix roots with
  | case1 r found same =>
    refine ⟨0, ?_, same, fun j before => absurd before (Nat.not_lt_zero j)⟩
    rw [settle, dif_pos same]
    rfl
  | case2 r found larger hyp =>
    obtain ⟨k, settled, same, before⟩ := hyp
    refine ⟨k + 1, ?_, same, fun j earlier => ?_⟩
    · rw [settle, dif_neg larger]
      exact settled
    · cases j with
      | zero => exact larger
      | succ j => exact before j (Nat.lt_of_succ_lt_succ earlier)

/-- Repeated sweeps stay in every closed pair. -/
theorem iterate_sweep_subset (k : Nat) {r : Reach} (closed : ix.Closed roots r) :
    ((ix.sweep roots)^[k] {}).definitions ⊆ r.definitions ∧
      ((ix.sweep roots)^[k] {}).types ⊆ r.types := by
  induction k with
  | zero => exact ⟨List.nil_subset _, List.nil_subset _⟩
  | succ k hyp =>
    rw [Function.iterate_succ_apply']
    exact sweep_subset closed hyp.1 hyp.2

/-- **What is reachable is the least closed pair.** -/
theorem least_reachable (ix : Index) (roots : List Nat) : ix.Least roots (ix.reachable roots) := by
  obtain ⟨k, settled, same, _⟩ := ix.settle_eq_iterate roots {}
  have reached : ix.reachable roots = (ix.sweep roots)^[k] {} := by
    rw [reachable, settled]
    rw [Function.iterate_succ_apply'] at same ⊢
    exact sweep_eq_of_size same
  rw [Function.iterate_succ_apply'] at same
  rw [reached]
  exact ⟨closed_of_size (fun _ closed => (iterate_sweep_subset k closed).1) same,
    fun _ closed => iterate_sweep_subset k closed⟩

end CallGraph.Program.Index
