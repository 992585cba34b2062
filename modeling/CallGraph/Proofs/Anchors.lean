import CallGraph.Proofs.LocalPaths

/-!
**Where a path starts from.**

The names of a path count from somewhere: from the crate after `crate`, from the module that the path
is written in after `self`, from one further up with each `super`, and from nowhere in particular if
the path starts with an ordinary name. A `self` in front of `super` is to change nothing.

* `Anchor` — how a path may start, `Anchor.base` — the module that its names then count from;
* `climb_replicate` — a walk up the modules, which ends at the crate;
* `absolute_anchored_iff` — a path is put behind its base, unless it goes up from `self`; whatever
  comes out starts with an ordinary name, and is not changed any more;
* `self_stops_climbing` — a path that goes up from `self`.
-/

namespace CallGraph.Program

open ModulePath (segments segments_ne_nil)

/-! ### Anchors -/

/-- **What stands in front of the ordinary names of a path.** -/
inductive Anchor where
  | crate
  /-- A number of `super`, perhaps after `self`. -/
  | up (fromSelf : Bool) (levels : Nat)
  deriving DecidableEq, Repr

namespace Anchor

/-- An anchor as it is written. -/
def names : Anchor → List String
  | crate => ["crate"]
  | up fromSelf levels => (if fromSelf then ["self"] else []) ++ List.replicate levels "super"

/-- The number of modules that an anchor goes up. -/
def levels : Anchor → Nat
  | crate => 0
  | up _ levels => levels

/-- **The module that names count from**, in the module that they are written in: not less than the
crate. Without an anchor there is none. -/
def base (modules : List String) : Anchor → List String
  | crate => modules.take 1
  | up false 0 => []
  | up _ levels => modules.take (max (modules.length - levels) 1)

/-- An anchor that goes up from `self`. -/
def LeavesSelf : Anchor → Prop
  | up true levels => 0 < levels
  | _ => False

end Anchor

/-- Names that do not start with a keyword. -/
def StartsPlain (names : List String) : Prop :=
  ∀ first ∈ names.head?, first ∉ pathKeywords

instance : DecidablePred StartsPlain := fun names =>
  inferInstanceAs (Decidable (∀ first ∈ names.head?, first ∉ pathKeywords))

/-! ### Paths that are made explicit -/

variable {modulePath : String} {rest : List String}

/-- Names that do not start with a keyword are left as they are. -/
theorem absolute_of_startsPlain (plain : StartsPlain rest) : absolute rest modulePath = rest := by
  cases rest with
  | nil => rfl
  | cons first rest =>
    have own : first ∉ pathKeywords := plain first rfl
    simp only [pathKeywords, List.mem_cons, List.not_mem_nil, or_false, not_or] at own
    obtain ⟨notCrate, notSelf, notSuper, _⟩ := own
    exact absolute_of_plain notCrate notSelf notSuper

/-- Names that do not start with a keyword stand where the walk up ends. -/
theorem climb_of_startsPlain (base : List String) (plain : StartsPlain rest) :
    climb base rest = base ++ rest := by
  unfold climb
  split
  · rename_i later
    exact absurd (by decide) (plain "super" rfl)
  · rfl

/-- **Each `super` goes one module up**, and none leaves the crate. -/
theorem climb_replicate {base : List String} (nonempty : base ≠ []) (plain : StartsPlain rest)
    (levels : Nat) : climb base (List.replicate levels "super" ++ rest) =
      base.take (max (base.length - levels) 1) ++ rest := by
  have positive := List.length_pos_iff.2 nonempty
  induction levels generalizing base with
  | zero =>
    rw [List.replicate_zero, List.nil_append, climb_of_startsPlain base plain,
      List.take_of_length_le (by omega)]
  | succ levels hyp =>
    rw [List.replicate_succ, List.cons_append, climb]
    by_cases inner : 1 < base.length
    · have above : 0 < base.dropLast.length := by
        rw [List.length_dropLast]
        omega
      rw [if_pos inner, hyp (List.ne_nil_of_length_pos above) above, List.length_dropLast,
        List.dropLast_eq_take, List.take_take]
      congr 2
      omega
    · rw [if_neg inner, hyp nonempty positive]
      congr 2
      omega

/-- After `self`, all names stay. -/
theorem absolute_self (names : List String) (modulePath : String) :
    absolute ("self" :: names) modulePath = segments modulePath ++ names := rfl

/-- After some `super`, names count from a module further up. -/
theorem absolute_super (plain : StartsPlain rest) (levels : Nat) :
    absolute (List.replicate (levels + 1) "super" ++ rest) modulePath =
      (segments modulePath).take (max ((segments modulePath).length - (levels + 1)) 1) ++ rest :=
  climb_replicate (segments_ne_nil modulePath) plain (levels + 1)

/-- A path is put behind the module that its names count from. -/
theorem absolute_anchored {a : Anchor} (direct : ¬a.LeavesSelf) (plain : StartsPlain rest) :
    absolute (a.names ++ rest) modulePath = a.base (segments modulePath) ++ rest := by
  match a with
  | .crate => rfl
  | .up false 0 => exact absolute_of_startsPlain plain
  | .up false (levels + 1) => exact absolute_super plain levels
  | .up true 0 =>
    have here : (Anchor.up true 0).base (segments modulePath) = segments modulePath :=
      List.take_of_length_le (Nat.le_max_left _ _)
    rw [here]
    exact absolute_self rest modulePath
  | .up true (levels + 1) => exact absurd (Nat.succ_pos levels) direct

/-- A path that goes up from `self` stays longer than one that goes up. -/
theorem absolute_ne_of_leavesSelf {a : Anchor} (mixed : a.LeavesSelf) (rest : List String) :
    absolute (a.names ++ rest) modulePath ≠ a.base (segments modulePath) ++ rest := by
  match a with
  | .crate | .up false _ => exact mixed.elim
  | .up true 0 => exact absurd mixed (Nat.lt_irrefl 0)
  | .up true (levels + 1) =>
    intro same
    have stays : absolute ((Anchor.up true (levels + 1)).names ++ rest) modulePath =
      segments modulePath ++ (List.replicate (levels + 1) "super" ++ rest) := rfl
    have positive := List.length_pos_iff.2 (segments_ne_nil modulePath)
    have lengths := congrArg List.length (stays.symm.trans same)
    simp only [Anchor.base, List.length_append, List.length_replicate, List.length_take] at lengths
    omega

/-- What is put behind the crate, or behind a module in it, starts as the module does. -/
theorem startsPlain_take (crate : StartsPlain (segments modulePath)) {n : Nat} (positive : 0 < n)
    (rest : List String) : StartsPlain ((segments modulePath).take n ++ rest) := by
  obtain ⟨first, later, modules⟩ := List.exists_cons_of_ne_nil (segments_ne_nil modulePath)
  obtain ⟨n, rfl⟩ := Nat.exists_eq_add_of_lt positive
  rw [modules] at crate ⊢
  exact crate

/-- **What a path is made into does not start with a keyword.** -/
theorem startsPlain_absolute (crate : StartsPlain (segments modulePath)) (a : Anchor)
    (plain : StartsPlain rest) : StartsPlain (absolute (a.names ++ rest) modulePath) := by
  match a with
  | .crate => exact startsPlain_take crate Nat.one_pos rest
  | .up false 0 =>
    show StartsPlain (absolute rest modulePath)
    rwa [absolute_of_startsPlain plain]
  | .up false (levels + 1) =>
    show StartsPlain (absolute (List.replicate (levels + 1) "super" ++ rest) modulePath)
    rw [absolute_super plain]
    exact startsPlain_take crate (by omega) rest
  | .up true levels =>
    have whole := startsPlain_take crate (List.length_pos_iff.2 (segments_ne_nil modulePath))
      (List.replicate levels "super" ++ rest)
    rwa [List.take_length] at whole

/-- **A path is put behind the module that its names count from**, unless it goes up from `self`: then
each `super` stays where it is. In each case what comes out does not start with a keyword, and making
it explicit again changes nothing. -/
theorem absolute_anchored_iff (crate : StartsPlain (segments modulePath)) (a : Anchor)
    (plain : StartsPlain rest) :
    (absolute (a.names ++ rest) modulePath = a.base (segments modulePath) ++ rest ↔
      ¬a.LeavesSelf) ∧
    (∀ levels, a = .up true levels → absolute (a.names ++ rest) modulePath =
      segments modulePath ++ (List.replicate levels "super" ++ rest)) ∧
    StartsPlain (absolute (a.names ++ rest) modulePath) ∧
    absolute (absolute (a.names ++ rest) modulePath) modulePath =
      absolute (a.names ++ rest) modulePath := by
  have starts := startsPlain_absolute crate a plain
  refine ⟨⟨fun same mixed => ?_, fun direct => absolute_anchored direct plain⟩, ?_, starts,
    absolute_of_startsPlain starts⟩
  · exact absolute_ne_of_leavesSelf mixed rest same
  · rintro levels rfl
    exact absolute_self _ modulePath

theorem absolute_anchored_iff_grandparent :
    StartsPlain (segments "app::net::tcp") ∧ StartsPlain ["dial"] ∧ ¬(Anchor.up false 2).LeavesSelf ∧
    absolute ["super", "super", "dial"] "app::net::tcp" = ["app", "dial"] ∧
    absolute (absolute ["super", "super", "dial"] "app::net::tcp") "app::net::tcp" =
      absolute ["super", "super", "dial"] "app::net::tcp" := by
  have crate : StartsPlain (segments "app::net::tcp") := by decide +kernel
  have plain : StartsPlain ["dial"] := by decide
  have explicit := absolute_anchored_iff crate (.up false 2) plain
  exact ⟨crate, plain, not_false, explicit.1.2 not_false, explicit.2.2.2⟩

/-- **`self` stops the way up**: with it in front, `super` is taken for the name of a module. -/
theorem self_stops_climbing :
    ¬∀ (modulePath : String) (a : Anchor) (rest : List String),
      StartsPlain (segments modulePath) → StartsPlain rest →
      a.levels < (segments modulePath).length →
        absolute (a.names ++ rest) modulePath = a.base (segments modulePath) ++ rest := by
  intro all
  have same := all "app::net::tcp" (.up true 1) ["dial"] (by decide +kernel) (by decide)
    (by decide +kernel)
  have mixed : (Anchor.up true 1).LeavesSelf := Nat.one_pos
  exact absolute_ne_of_leavesSelf mixed ["dial"] same

end CallGraph.Program
