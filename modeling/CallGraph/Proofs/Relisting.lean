import CallGraph.Files
import CallGraph.Proofs.PathOrder
import Mathlib.Data.List.Nodup

/-!
**File trees that list the same in another order.**

A folder lists what it holds in some order, which is that of its children here. What a path names does
not hang on it: the same path leads to the same file, or to a folder that lists the same once more.

* `Entry.Named` — every folder lists names, each of them once; `Named.change`, `Files.named_putFile` —
  trees that are built are such;
* `Entry.Relisted` — folders that list the same, in any order and at any depth;
* `Relisted.child?`, `Relisted.at?`, `Relisted.text_eq` — what lies inside of them;
* `Files.relist`, `Files.place_relist`, `Files.entry_relist` — what a path names.
-/

namespace CallGraph

namespace Entry

/-- **A tree whose folders list names**, each of them once. -/
inductive Named : Entry → Prop
  | ofFile (content : Option String) : Named (file content)
  | ofFolder {children : List (String × Entry)} : (children.map (·.1)).Nodup →
    (∀ c ∈ children, Path.IsName c.1) → (∀ c ∈ children, Named c.2) → Named (folder children)

/-- **Two trees that differ in the order in which their folders are listed.** -/
inductive Relisted : Entry → Entry → Prop
  | same (e : Entry) : Relisted e e
  | order {children others : List (String × Entry)} : children.Perm others →
    Relisted (folder children) (folder others)
  | inside {before after : List (String × Entry)} {name : String} {e e' : Entry} : Relisted e e' →
    Relisted (folder (before ++ (name, e) :: after)) (folder (before ++ (name, e') :: after))
  | trans {e e' e'' : Entry} : Relisted e e' → Relisted e' e'' → Relisted e e''

variable {e e' f : Entry} {children others : List (String × Entry)} {name : String}
  {names : List String}

/-! ### Children by their names -/

/-- If no name is listed twice, a name stands for the entry that is listed under it. -/
theorem lookup_eq_some_iff_mem (distinct : (children.map (·.1)).Nodup) :
    children.lookup name = some e ↔ (name, e) ∈ children := by
  induction children with
  | nil => simp
  | cons first rest hyp =>
    obtain ⟨other, f⟩ := first
    obtain ⟨new, later⟩ := List.nodup_cons.1 distinct
    rw [List.lookup_cons, List.mem_cons]
    by_cases same : name = other
    · subst same
      have absent : (name, e) ∉ rest := fun here => new (List.mem_map.2 ⟨_, here, rfl⟩)
      rw [beq_self_eq_true]
      simp only [Option.some.injEq, Prod.mk.injEq, true_and]
      exact ⟨fun equal => Or.inl equal.symm, fun here => (here.resolve_right absent).symm⟩
    · rw [beq_eq_false_iff_ne.2 same]
      simp only [Prod.mk.injEq, same, false_and, false_or]
      exact hyp later

theorem Named.distinct (named : e.Named) : (e.children.map (·.1)).Nodup := by
  cases named with
  | ofFile content => exact List.nodup_nil
  | ofFolder distinct _ _ => exact distinct

theorem Named.isName {c : String × Entry} (named : e.Named) (here : c ∈ e.children) :
    Path.IsName c.1 := by
  cases named with
  | ofFile content => cases here
  | ofFolder _ isNames _ => exact isNames c here

theorem Named.inner {c : String × Entry} (named : e.Named) (here : c ∈ e.children) :
    c.2.Named := by
  cases named with
  | ofFile content => cases here
  | ofFolder _ _ inner => exact inner c here

/-- A name stands for the entry that is listed under it. -/
theorem Named.child?_iff (named : e.Named) : e.child? name = some f ↔ (name, f) ∈ e.children :=
  lookup_eq_some_iff_mem named.distinct

theorem Named.of_child? (named : e.Named) (found : e.child? name = some f) :
    Path.IsName name ∧ f.Named :=
  ⟨named.isName (named.child?_iff.1 found), named.inner (named.child?_iff.1 found)⟩

/-- The way to what lies inside a tree is one of names. -/
theorem Named.of_at? (named : e.Named) (found : e.at? names = some f) :
    (∀ n ∈ names, Path.IsName n) ∧ f.Named := by
  induction names generalizing e with
  | nil =>
    cases found
    exact ⟨fun n here => absurd here List.not_mem_nil, named⟩
  | cons name rest hyp =>
    obtain ⟨next, first, later⟩ := Option.bind_eq_some_iff.1 found
    obtain ⟨isName, inner⟩ := named.of_child? first
    obtain ⟨others, last⟩ := hyp inner later
    exact ⟨List.forall_mem_cons.2 ⟨isName, others⟩, last⟩

/-! ### Trees that are built -/

/-- An entry of a folder stays, unless it is the one that is changed. -/
theorem mem_changeChild {change : Option Entry → Entry} {c : String × Entry}
    (here : c ∈ changeChild name change children) :
    c ∈ children ∨ ∃ old, c = (name, change old) ∧ ∀ f, old = some f → (name, f) ∈ children := by
  induction children with
  | nil => exact Or.inr ⟨none, List.mem_singleton.1 here, nofun⟩
  | cons first rest hyp =>
    obtain ⟨other, f⟩ := first
    rw [changeChild] at here
    split at here
    · rename_i same
      subst same
      rcases List.mem_cons.1 here with changed | later
      · exact Or.inr ⟨some f, changed, fun g same => Option.some.inj same ▸ List.mem_cons_self⟩
      · exact Or.inl (List.mem_cons_of_mem _ later)
    · rcases List.mem_cons.1 here with first | later
      · exact Or.inl (first ▸ List.mem_cons_self)
      · refine (hyp later).imp (List.mem_cons_of_mem _) ?_
        rintro ⟨old, changed, known⟩
        exact ⟨old, changed, fun g same => List.mem_cons_of_mem _ (known g same)⟩

theorem nodup_changeChild (change : Option Entry → Entry) (name : String)
    (distinct : (children.map (·.1)).Nodup) :
    ((changeChild name change children).map (·.1)).Nodup := by
  induction children with
  | nil => exact List.nodup_singleton _
  | cons first rest hyp =>
    obtain ⟨other, f⟩ := first
    obtain ⟨new, later⟩ := List.nodup_cons.1 distinct
    rw [changeChild]
    split
    · exact distinct
    · rename_i differ
      refine List.nodup_cons.2 ⟨fun here => ?_, hyp later⟩
      obtain ⟨c, inRest, same⟩ := List.mem_map.1 here
      rcases mem_changeChild inRest with old | ⟨_, rfl, _⟩
      · exact new (List.mem_map.2 ⟨c, old, same⟩)
      · exact differ same.symm

/-- **A tree of names stays one** when a part of it is changed. -/
theorem Named.change {replace : Option Entry → Entry} (named : e.Named)
    (isNames : ∀ n ∈ names, Path.IsName n)
    (replaced : ∀ old, (∀ f, old = some f → f.Named) → (replace old).Named) :
    (e.change replace names).Named := by
  have child : ∀ {e : Entry} {name : String} {change : Option Entry → Entry}, e.Named →
      Path.IsName name → (∀ old, (∀ f, old = some f → f.Named) → (change old).Named) →
      (folder (changeChild name change e.children)).Named := by
    intro e name change named isName changed
    refine .ofFolder (nodup_changeChild change name named.distinct) (fun c here => ?_) fun c here => ?_
    · rcases mem_changeChild here with old | ⟨_, rfl, _⟩
      · exact named.isName old
      · exact isName
    · rcases mem_changeChild here with old | ⟨old, rfl, known⟩
      · exact named.inner old
      · exact changed old fun f same => named.inner (known f same)
  induction names generalizing e with
  | nil => exact replaced (some e) fun f same => Option.some.inj same ▸ named
  | cons name rest hyp =>
    obtain ⟨isName, others⟩ := List.forall_mem_cons.1 isNames
    cases rest with
    | nil => exact child named isName replaced
    | cons _ _ =>
      refine child named isName fun old known => hyp ?_ others
      cases old with
      | none => exact .ofFolder List.nodup_nil (fun c here => nomatch here) fun c here => nomatch here
      | some f => exact known f rfl

/-! ### Trees in another order -/

namespace Relisted

theorem symm (relisted : e.Relisted e') : e'.Relisted e := by
  induction relisted with
  | same e => exact .same e
  | order perm => exact .order perm.symm
  | inside _ hyp => exact .inside hyp
  | trans _ _ first second => exact second.trans first

/-- A folder stays a folder. -/
theorem isFolder_eq (relisted : e.Relisted e') : e.isFolder = e'.isFolder := by
  induction relisted with
  | same _ | order _ | inside _ _ => rfl
  | trans _ _ first second => exact first.trans second

/-- A file stays as it is. -/
theorem text_eq (relisted : e.Relisted e') : e.text = e'.text := by
  induction relisted with
  | same _ | order _ | inside _ _ => rfl
  | trans _ _ first second => exact first.trans second

/-- Names stay names, and are listed once. -/
theorem named (relisted : e.Relisted e') (known : e.Named) : e'.Named := by
  induction relisted with
  | same _ => exact known
  | order perm =>
    refine .ofFolder ((perm.map _).nodup_iff.1 known.distinct) (fun c here => ?_) fun c here => ?_
    · exact known.isName (perm.mem_iff.2 here)
    · exact known.inner (perm.mem_iff.2 here)
  | @inside before after name f f' _ hyp =>
    have first : (name, f) ∈ before ++ (name, f) :: after := by simp
    have names : (before ++ (name, f) :: after).map (·.1) =
        (before ++ (name, f') :: after).map (·.1) := by
      simp
    have listed : ∀ c ∈ before ++ (name, f') :: after,
        c ∈ before ++ (name, f) :: after ∨ c = (name, f') := by
      intro c here
      rw [List.mem_append, List.mem_cons] at here ⊢
      tauto
    have isName : Path.IsName name := known.isName first
    have inner : f.Named := known.inner first
    refine .ofFolder (names ▸ known.distinct) (fun c here => ?_) fun c here => ?_
    · rcases listed c here with old | rfl
      · exact known.isName old
      · exact isName
    · rcases listed c here with old | rfl
      · exact known.inner old
      · exact hyp inner
  | trans _ _ first second => exact second (first known)

/-- **A name stands for the same in both.** -/
theorem child? (relisted : e.Relisted e') (known : e.Named) (found : e.child? name = some f) :
    ∃ f', e'.child? name = some f' ∧ f.Relisted f' := by
  induction relisted generalizing f with
  | same _ => exact ⟨f, found, .same f⟩
  | order perm =>
    have moved := (order perm).named known
    exact ⟨f, moved.child?_iff.2 (perm.mem_iff.1 (known.child?_iff.1 found)), .same f⟩
  | @inside before after own g g' changed _ =>
    have moved := (inside changed).named known
    have here := known.child?_iff.1 found
    simp only [children, List.mem_append, List.mem_cons, Prod.mk.injEq] at here
    rcases here with early | ⟨rfl, rfl⟩ | late
    · exact ⟨f, moved.child?_iff.2 (by simp [children, early]), .same f⟩
    · exact ⟨g', moved.child?_iff.2 (by simp [children]), changed⟩
    · exact ⟨f, moved.child?_iff.2 (by simp [children, late]), .same f⟩
  | trans first _ hyp hyp' =>
    obtain ⟨g, between, early⟩ := hyp known found
    obtain ⟨h, last, late⟩ := hyp' (first.named known) between
    exact ⟨h, last, early.trans late⟩

/-- **What lies inside of both.** -/
theorem at? (relisted : e.Relisted e') (known : e.Named) (found : e.at? names = some f) :
    ∃ f', e'.at? names = some f' ∧ f.Relisted f' := by
  induction names generalizing e e' with
  | nil =>
    cases found
    exact ⟨e', rfl, relisted⟩
  | cons name rest hyp =>
    obtain ⟨next, first, later⟩ := Option.bind_eq_some_iff.1 found
    obtain ⟨next', there, inner⟩ := relisted.child? known first
    obtain ⟨f', last, same⟩ := hyp inner (known.of_child? first).2 later
    exact ⟨f', Option.bind_eq_some_iff.2 ⟨next', there, last⟩, same⟩

theorem isSome_child? (relisted : e.Relisted e') (known : e.Named) (name : String) :
    (e'.child? name).isSome = (e.child? name).isSome := by
  rw [Bool.eq_iff_iff, Option.isSome_iff_exists, Option.isSome_iff_exists]
  constructor
  · rintro ⟨f', found⟩
    obtain ⟨f, there, _⟩ := relisted.symm.child? (relisted.named known) found
    exact ⟨f, there⟩
  · rintro ⟨f, found⟩
    obtain ⟨f', there, _⟩ := relisted.child? known found
    exact ⟨f', there⟩

theorem at?_eq_none (relisted : e.Relisted e') (known : e.Named) (absent : e.at? names = none) :
    e'.at? names = none := by
  by_contra present
  obtain ⟨f', found⟩ := Option.ne_none_iff_exists'.1 present
  obtain ⟨f, there, _⟩ := relisted.symm.at? (relisted.named known) found
  rw [absent] at there
  cases there

/-- **What is gathered from the entries of a folder**, each of them on its own. -/
theorem perm_flatMap {α : Type} {g : String × Entry → List α} (relisted : e.Relisted e')
    (each : ∀ {name f f'}, f.Relisted f' → (g (name, f)).Perm (g (name, f'))) :
    (e.children.flatMap g).Perm (e'.children.flatMap g) := by
  induction relisted with
  | same _ => exact .refl _
  | order perm => exact perm.flatMap_right g
  | inside changed _ =>
    simp only [children, List.flatMap_append, List.flatMap_cons]
    exact ((each changed).append_right _).append_left _
  | trans _ _ first second => exact first.trans second

end Relisted

end Entry

namespace Files

/-- Files whose folders are listed in another order. -/
def relist (fs : Files) (top : Entry) : Files :=
  { fs with top := top }

variable {fs : Files} {top e : Entry} {path : String}

theorem named_emptyFolder {name : String} (isName : Path.IsName name) :
    (emptyFolder name).top.Named := by
  have empty : (Entry.folder []).Named :=
    .ofFolder List.nodup_nil (fun c here => nomatch here) fun c here => nomatch here
  refine .ofFolder (List.nodup_singleton _) (fun c here => ?_) fun c here => ?_
  · rw [List.mem_singleton.1 here]
    exact isName
  · rw [List.mem_singleton.1 here]
    exact empty

/-- **Files of names stay so** when one is put below a working folder with a name. -/
theorem named_putFile (named : fs.top.Named) (isNames : ∀ n ∈ fs.here, Path.IsName n) (path : String)
    (content : Option String) : (fs.putFile path content).top.Named := by
  refine named.change (fun n here => ?_) fun _ _ => .ofFile content
  rcases List.mem_append.1 here with inHere | inPath
  · exact isNames n inHere
  · obtain ⟨component, inside, same⟩ := List.mem_filterMap.1 inPath
    cases component with
    | name m =>
      cases same
      exact Path.isName_of_mem_components inside
    | _ => cases same

/-- One step of a path leads to the same place. -/
theorem step_relist (relisted : fs.top.Relisted top) (known : fs.top.Named) :
    (fs.relist top).step = fs.step := by
  funext place piece
  have moved : (fs.relist top).top.at? place = top.at? place := rfl
  unfold step
  rw [moved]
  cases found : fs.top.at? place with
  | none => rw [relisted.at?_eq_none known found]
  | some e =>
    obtain ⟨e', there, inner⟩ := relisted.at? known found
    have listed := inner.isSome_child? (known.of_at? found).2 piece
    have folders := inner.isFolder_eq
    rw [there]
    cases e with
    | file _ =>
      cases e' with
      | file _ => rfl
      | folder _ => cases folders
    | folder children =>
      cases e' with
      | file _ => cases folders
      | folder others =>
        have listed : (others.lookup piece).isSome = (children.lookup piece).isSome := listed
        dsimp only
        rw [listed]

/-- **A path leads to the same place.** -/
theorem place_relist (relisted : fs.top.Relisted top) (known : fs.top.Named) (path : String) :
    (fs.relist top).place path = fs.place path := by
  unfold place
  rw [step_relist relisted known]
  rfl

theorem lastName?_relist (relisted : fs.top.Relisted top) (known : fs.top.Named) (path : String) :
    (fs.relist top).lastName? path = fs.lastName? path := by
  rw [lastName?, place_relist relisted known, lastName?]

/-- What a path names lies at the place that it leads to. -/
theorem entry_eq_ok_iff : fs.entry path = .ok e ↔
    ∃ place, fs.place path = .ok place ∧ fs.top.at? place = some e := by
  unfold entry
  cases fs.place path with
  | error fault =>
    constructor
    · intro given
      cases given
    · rintro ⟨_, given, _⟩
      cases given
  | ok place =>
    simp only [Except.ok.injEq, exists_eq_left']
    dsimp only [bind, Except.bind]
    cases fs.top.at? place with
    | none => constructor <;> intro given <;> cases given
    | some f =>
      constructor
      · exact fun same => congrArg some (Except.ok.inj same)
      · exact fun same => congrArg Except.ok (Option.some.inj same)

/-- **What a path names**: the same, but for the order in which it is listed. -/
theorem entry_relist (relisted : fs.top.Relisted top) (known : fs.top.Named)
    (found : fs.entry path = .ok e) :
    ∃ e', (fs.relist top).entry path = .ok e' ∧ e.Relisted e' := by
  obtain ⟨place, leads, there⟩ := entry_eq_ok_iff.1 found
  obtain ⟨e', other, inner⟩ := relisted.at? known there
  exact ⟨e', entry_eq_ok_iff.2 ⟨place, (place_relist relisted known path).trans leads, other⟩, inner⟩

theorem named_of_entry (known : fs.top.Named) (found : fs.entry path = .ok e) : e.Named := by
  obtain ⟨place, _, there⟩ := entry_eq_ok_iff.1 found
  exact (known.of_at? there).2

end Files

end CallGraph
