import CallGraph.Path
import CallGraph.Proofs.Arrangement
import CallGraph.Proofs.Validation

/-!
**Paths by their components.**

The theory of `Path`. A name that a folder can list adds one component to the path that it is read from
inside of, so what lies below a path is told apart by the names on the way. The order of paths is that of
their components: it is total, and what it does not tell apart has the same components.

* `IsName` — a name that a folder can list, `below` — a path with such names behind it;
* `components_join`, `components_below` — what the names add;
* `extension?_join`, `endsWith_join` — the last of them decides;
* `compare_eq_eq_iff` — the order of paths, which is a total one.
-/

namespace CallGraph.Path

/-! ### Names behind a path -/

/-- A name that a folder can list: it is not empty, leads neither nowhere nor up, and has no slash. -/
structure IsName (name : String) : Prop where
  moves : Component.isSilent name = false
  down : name ≠ ".."
  whole : '/' ∉ name.toList

/-- A path with names behind it. -/
def below (path : String) (names : List String) : String :=
  names.foldl join path

@[simp] theorem below_nil (path : String) : below path [] = path := rfl

@[simp] theorem below_cons (path name : String) (names : List String) :
    below path (name :: names) = below (join path name) names := rfl

section

variable {front base path name last : String} {names : List String}

/-- The pieces of two texts with a slash between them. -/
theorem pieces_slash (front rest : String) :
    pieces (front ++ "/" ++ rest) = pieces front ++ pieces rest := by
  unfold pieces Text.split
  rw [String.toList_append, String.toList_append, List.append_assoc, ← List.map_append]
  exact congrArg (List.map String.ofList) (Text.pieces_append_cons rfl _ _)

theorem pieces_ne_nil (path : String) : pieces path ≠ [] :=
  fun empty => Text.pieces_ne_nil _ _ (List.map_eq_nil_iff.1 empty)

theorem IsName.pieces_eq (isName : IsName name) : pieces name = [name] := by
  have free : ∀ c ∈ name.toList, (c == '/') = false := fun c here =>
    beq_false_of_ne fun same => isName.whole (same ▸ here)
  rw [pieces, Text.split, Text.pieces_whole free, List.map_singleton, String.ofList_toList]

theorem IsName.ofPiece?_eq (isName : IsName name) :
    Component.ofPiece? name = some (.name name) := by
  rw [Component.ofPiece?, isName.moves, if_neg Bool.false_ne_true, if_neg isName.down]

theorem IsName.isAbsolute_eq (isName : IsName name) : isAbsolute name = false := by
  have whole := isName.whole
  rw [isAbsolute, Text.startsWith, Bool.eq_false_iff]
  intro starts
  obtain ⟨rest, same⟩ := List.isPrefixOf_iff_prefix.1 starts
  refine whole ?_
  rw [← same]
  exact List.mem_cons_self

/-- **The names in a path** are names that a folder can list. -/
theorem isName_of_mem_components (here : .name name ∈ components path) : IsName name := by
  have step : .name name ∈ (pieces path).filterMap Component.ofPiece? := by
    unfold components at here
    dsimp only at here
    split at here
    · exact (List.mem_cons.1 here).resolve_left nofun
    · split at here
      · exact (List.mem_cons.1 here).resolve_left nofun
      · exact here
  obtain ⟨piece, isPiece, stands⟩ := List.mem_filterMap.1 step
  rw [Component.ofPiece?] at stands
  split at stands
  · cases stands
  · rename_i moves
    split at stands
    · cases stands
    · rename_i down
      cases stands
      obtain ⟨cs, inPieces, rfl⟩ := List.mem_map.1 isPiece
      refine ⟨Bool.eq_false_of_not_eq_true moves, down, fun slash => ?_⟩
      rw [String.toList_ofList] at slash
      exact absurd (Text.not_cut_of_mem_pieces inPieces slash) (by decide)

/-- Whether a path is absolute hangs on its first character. -/
theorem isAbsolute_append (some : front ≠ "") (rest : String) :
    isAbsolute (front ++ rest) = isAbsolute front := by
  have nonempty : front.toList ≠ [] := by simpa using some
  obtain ⟨c, cs, first⟩ := List.exists_cons_of_ne_nil nonempty
  rw [isAbsolute, isAbsolute, Text.startsWith, Text.startsWith, String.toList_append, first]
  rfl

/-- What stands behind a slash adds its own steps. -/
theorem components_slash (some : front ≠ "") (rest : String) : components (front ++ "/" ++ rest) =
    components front ++ (pieces rest).filterMap Component.ofPiece? := by
  have first : (pieces (front ++ "/" ++ rest)).head? = (pieces front).head? := by
    rw [pieces_slash, List.head?_append_of_ne_nil _ (pieces_ne_nil front)]
  have absolute : isAbsolute (front ++ "/" ++ rest) = isAbsolute front := by
    rw [String.append_assoc]
    exact isAbsolute_append some _
  unfold components
  rw [first, absolute, pieces_slash, List.filterMap_append]
  split
  · rfl
  · split <;> rfl

/-- What stands behind the slash at the start of an absolute path. -/
theorem components_root (rest : String) :
    components ("/" ++ rest) = .root :: (pieces rest).filterMap Component.ofPiece? := by
  have absolute : isAbsolute ("/" ++ rest) = true := isAbsolute_append (by decide) rest
  have steps : pieces ("/" ++ rest) = "" :: pieces rest := pieces_slash "" rest
  unfold components
  rw [absolute, steps]
  rfl

/-- **A name adds one component.** -/
theorem components_join (isName : IsName name) (base : String) :
    components (join base name) = components base ++ [.name name] := by
  have step : (pieces name).filterMap Component.ofPiece? = [.name name] := by
    rw [isName.pieces_eq, List.filterMap_cons, isName.ofPiece?_eq, List.filterMap_nil]
  unfold join
  rw [isName.isAbsolute_eq, Bool.false_or]
  by_cases empty : base = ""
  · have other : (pieces name).head? ≠ some "." := by
      rw [isName.pieces_eq]
      intro same
      have moves := isName.moves
      rw [Option.some.inj same] at moves
      cases moves
    rw [if_pos (decide_eq_true empty), empty]
    show components name = [] ++ [.name name]
    unfold components
    rw [isName.isAbsolute_eq, if_neg Bool.false_ne_true, if_neg other, step, List.nil_append]
  · rw [if_neg (by simpa using empty)]
    split
    · rename_i slash
      obtain ⟨cs, chars⟩ := List.getLast?_eq_some_iff.1 slash
      obtain ⟨front, rfl⟩ : ∃ front, base = front ++ "/" := by
        refine ⟨String.ofList cs, ?_⟩
        rw [← String.toList_inj, chars, String.toList_append, String.toList_ofList]
        rfl
      by_cases root : front = ""
      · rw [root]
        show components ("/" ++ name) = components ("/" ++ "") ++ _
        rw [components_root, components_root, step]
        rfl
      · have trailing : components (front ++ "/") = components front := by
          have ends := components_slash root ""
          rw [String.append_empty] at ends
          exact ends.trans (List.append_nil _)
        rw [components_slash root, trailing, step]
    · rw [components_slash empty, step]

/-- What lies below two names of one path lies below one name. -/
theorem name_eq_of_prefix {steps : List Component} (isName : IsName name) (other : IsName last)
    (first : components (join path name) <+: steps) (second : components (join path last) <+: steps) :
    name = last := by
  rw [components_join isName] at first
  rw [components_join other] at second
  have same := (List.prefix_of_prefix_length_le first second (by simp)).eq_of_length (by simp)
  exact Component.name.inj (List.singleton_inj.1 (List.append_cancel_left same))

/-- **Names add a component each.** -/
theorem components_below (isNames : ∀ n ∈ names, IsName n) (path : String) :
    components (below path names) = components path ++ names.map .name := by
  induction names generalizing path with
  | nil => exact (List.append_nil _).symm
  | cons name rest hyp =>
    obtain ⟨first, others⟩ := List.forall_mem_cons.1 isNames
    rw [below_cons, hyp others, components_join first, List.append_assoc]
    rfl

theorem fileName?_join (isName : IsName name) (base : String) :
    fileName? (join base name) = some name := by
  rw [fileName?, components_join isName, List.getLast?_concat]

/-- The extension is that of the name. -/
theorem extension?_join (isName : IsName name) (base : String) :
    extension? (join base name) = (splitDot name).2 := by
  rw [extension?, fileName?_join isName, Option.bind_some]

theorem endsWith_join (isName : IsName name) (base last : String) :
    endsWith (join base name) last = decide (name = last) := by
  rw [endsWith, components_join isName, List.getLast?_concat, Bool.eq_iff_iff, beq_iff_eq,
    decide_eq_true_iff, Option.some.injEq, Component.name.injEq]

end

/-! ### The order of paths -/

namespace Component

/-- Steps are ordered by their kind, and then by what they say. -/
theorem compare_eq_lex : Component.compare = compareLex (compareOn compare.rank) (compareOn text) := by
  funext a b
  cases a <;> cases b <;> rfl

instance : Std.TransCmp Component.compare := by
  rw [compare_eq_lex]
  infer_instance

instance : Std.LawfulEqCmp Component.compare where
  compare_self := Std.ReflCmp.compare_self
  eq_of_compare {a b} same := by
    rw [compare_eq_lex, compareLex, Ordering.then_eq_eq] at same
    have kind : compare.rank a = compare.rank b := Std.LawfulEqOrd.eq_of_compare same.1
    have texts : a.text = b.text := Std.LawfulEqOrd.eq_of_compare same.2
    cases a with
    | name a =>
      cases b with
      | name b => exact congrArg name texts
      | _ => cases kind
    | _ =>
      cases b with
      | name b => cases kind
      | _ => cases kind <;> rfl

end Component

theorem compareComponents_eq_lex : compareComponents = List.compareLex Component.compare := by
  funext as bs
  induction as generalizing bs with
  | nil => cases bs <;> rfl
  | cons a as hyp =>
    cases bs with
    | nil => rfl
    | cons b bs =>
      rw [compareComponents, hyp, List.compareLex_cons_cons]

instance : Std.TransCmp compareComponents := by
  rw [compareComponents_eq_lex]
  infer_instance

instance : Std.TransCmp Path.compare where
  eq_swap {a b} :=
    (Std.OrientedCmp.eq_swap : compareComponents (components a) (components b) = _)
  isLE_trans {a _ c} first second :=
    (Std.TransCmp.isLE_trans first second :
      (compareComponents (components a) (components c)).isLE = true)

/-- **What the order of paths does not tell apart is the same path.** -/
theorem compare_eq_eq_iff {a b : String} : Path.compare a b = .eq ↔ same a b = true := by
  rw [Path.compare, compareComponents_eq_lex, Std.LawfulEqCmp.compare_eq_iff_eq, same, beq_iff_eq]

theorem same_iff {a b : String} : same a b = true ↔ components a = components b := by
  rw [same, beq_iff_eq]

end CallGraph.Path
