import CallGraph.Proofs.Admission
import CallGraph.Proofs.PathNames

/-!
**The first stage that rejects a call decides.**

Each stage of a filter is said here by itself, on the nodes at the ends of a call and on the calls of
the graph, whatever the other stages say of it. The verdict is then a matter of their order.

* `DropReason.Before`, `find?_all_eq_some_iff` — the order of the stages, and the first of them;
* `Graph.Names`, `resolveFocus_eq_some_iff` — the module that a focus text names;
* `FilterConfig.Rejects` — what each stage rejects;
* `Filter.verdict_eq_find?`, `Filter.verdict_first_stage` — a verdict names the first stage that
  rejects the call, and there is none if no stage does;
* `Filter.blank_focus_is_ignored` — a blank text names no module, even if there is one of that path.
-/

namespace CallGraph

/-! ### The order of the stages -/

/-- The first element that passes a test is the one that passes it while those in front do not. -/
theorem find?_eq_some_iff_idxOf {α : Type} [DecidableEq α] {test : α → Bool} {xs : List α} {a : α}
    (listed : a ∈ xs) : xs.find? test = some a ↔
      test a = true ∧ ∀ b ∈ xs, xs.idxOf b < xs.idxOf a → test b = false := by
  induction xs with
  | nil => cases listed
  | cons x xs hyp =>
    by_cases same : x = a
    · subst same
      rw [List.idxOf_cons_self, List.find?_cons]
      cases passes : test x with
      | true => simp
      | false => exact iff_of_false (by simp [List.find?_eq_some_iff_append, passes]) (by simp)
    · have behind : a ∈ xs := (List.mem_cons.1 listed).resolve_left fun at_ => same at_.symm
      have first : (x :: xs).idxOf x < (x :: xs).idxOf a := by
        rw [List.idxOf_cons_self, List.idxOf_cons_ne xs same]
        exact Nat.succ_pos _
      cases passes : test x with
      | true =>
        rw [List.find?_cons_of_pos passes]
        refine iff_of_false (fun found => same (Option.some.inj found)) fun none => ?_
        rw [none.2 x List.mem_cons_self first] at passes
        cases passes
      | false =>
        rw [List.find?_cons_of_neg (Bool.eq_false_iff.1 passes), hyp behind]
        refine and_congr_right fun _ => ⟨fun none b here before => ?_, fun none b here before => ?_⟩
        · by_cases atFront : x = b
          · exact atFront ▸ passes
          · rw [List.idxOf_cons_ne xs atFront, List.idxOf_cons_ne xs same] at before
            exact none b ((List.mem_cons.1 here).resolve_left fun at_ => atFront at_.symm)
              (Nat.lt_of_succ_lt_succ before)
        · by_cases atFront : x = b
          · exact atFront ▸ passes
          · refine none b (List.mem_cons_of_mem x here) ?_
            rw [List.idxOf_cons_ne xs atFront, List.idxOf_cons_ne xs same]
            exact Nat.succ_lt_succ before

namespace DropReason

/-- The stage of one reason is tried before that of another. -/
def Before (a b : DropReason) : Prop :=
  all.idxOf a < all.idxOf b

instance (a b : DropReason) : Decidable (a.Before b) :=
  inferInstanceAs (Decidable (_ < _))

variable {test : DropReason → Bool} {reason : DropReason}

theorem find?_all_eq_some_iff : all.find? test = some reason ↔
    test reason = true ∧ ∀ earlier, earlier.Before reason → test earlier = false := by
  rw [find?_eq_some_iff_idxOf (mem_all reason)]
  refine and_congr_right fun _ => forall_congr' fun earlier => ?_
  exact forall_prop_of_true (mem_all earlier)

theorem find?_all_eq_none_iff : all.find? test = none ↔ ∀ reason, test reason = false := by
  simp only [List.find?_eq_none, Bool.not_eq_true, mem_all, forall_const]

end DropReason

/-! ### Ends of calls and modules -/

namespace Graph

/-- A node at an end of a call. -/
def EndOf (g : Graph) (e : Edge) (n : Node) : Prop :=
  g.node? e.caller = some n ∨ g.node? e.callee = some n

/-- A call that a builder put in, or one with an end that it put in or that has no module. -/
def Artificial (g : Graph) (e : Edge) : Prop :=
  e.call.synthetic = true ∨ ∃ n, g.EndOf e n ∧ (n.synthetic = true ∨ n.modulePath = none)

/-- Some node lies in a module. -/
def HasModule (g : Graph) (module : String) : Prop :=
  ∃ v n, g.node? v = some n ∧ n.modulePath = some module

/-- The first node shown by a name, of those that lie in a module, lies in this one. -/
def FirstShown (g : Graph) (name module : String) : Prop :=
  ∃ v n, g.node? v = some n ∧ n.moduleName = some name ∧ n.modulePath = some module ∧
    ∀ u < v, ∀ m, g.node? u = some m → m.moduleName = some name → m.modulePath = none

/-- **The module that a text names**: the module of that path, or, if there is none, that of the first
node whose module is shown by that name. -/
def Names (g : Graph) (name module : String) : Prop :=
  g.HasModule name ∧ module = name ∨ ¬ g.HasModule name ∧ g.FirstShown name module

/-- A call from a module leads to the caller of this call, and one leads from its callee into that
module. -/
def Bridges (g : Graph) (module : String) (e : Edge) : Prop :=
  (∃ e' ∈ g.edges, ¬ g.Artificial e' ∧ e'.callee = e.caller ∧
    ∃ n, g.node? e'.caller = some n ∧ n.modulePath = some module) ∧
  ∃ e' ∈ g.edges, ¬ g.Artificial e' ∧ e'.caller = e.callee ∧
    ∃ n, g.node? e'.callee = some n ∧ n.modulePath = some module

/-- A call has nothing to do with a module: no end lies in it, and the call is no bridge over it. -/
def Misses (g : Graph) (module : String) (e : Edge) : Prop :=
  (∀ n, g.EndOf e n → n.modulePath ≠ some module) ∧ ¬ g.Bridges module e

variable {g : Graph} {e : Edge} {n m k : Node} {name module text : String}

/-- The ends of a call are its caller and its callee. -/
theorem endOf_iff (caller : g.node? e.caller = some n) (callee : g.node? e.callee = some m) :
    g.EndOf e k ↔ k = n ∨ k = m := by
  rw [EndOf, caller, callee, Option.some.injEq, Option.some.injEq, eq_comm, eq_comm (a := m)]

theorem isSyntheticEdge_iff (caller : g.node? e.caller = some n)
    (callee : g.node? e.callee = some m) : g.isSyntheticEdge e = true ↔ g.Artificial e := by
  unfold isSyntheticEdge Artificial
  simp only [caller, callee, endOf_iff caller callee, or_and_right, exists_or, exists_eq_left,
    Bool.or_eq_true, Option.isNone_iff_eq_none]
  tauto

/-- The edges of a graph join nodes. -/
theorem WellFormed.isSyntheticEdge_iff (wf : g.WellFormed) (here : e ∈ g.edges) :
    g.isSyntheticEdge e = true ↔ g.Artificial e := by
  obtain ⟨n, caller⟩ := exists_node? (wf.ends e here).1
  obtain ⟨m, callee⟩ := exists_node? (wf.ends e here).2
  exact Graph.isSyntheticEdge_iff caller callee

/-- The first node that passes a test, by number. -/
theorem find?_nodes_iff {test : Node → Bool} : g.nodes.toList.find? test = some n ↔
    ∃ v, g.node? v = some n ∧ test n = true ∧
      ∀ u < v, ∀ m, g.node? u = some m → test m = false := by
  rw [List.find?_eq_some_iff_getElem]
  constructor
  · rintro ⟨passes, v, inRange, rfl, none⟩
    refine ⟨v, ?_, passes, fun u before m here => ?_⟩
    · exact (Array.getElem?_eq_getElem inRange).trans (by simp)
    · obtain ⟨_, rfl⟩ := Array.getElem?_eq_some_iff.1 here
      simpa using none u before
  · rintro ⟨v, here, passes, none⟩
    obtain ⟨inRange, rfl⟩ := Array.getElem?_eq_some_iff.1 here
    refine ⟨passes, v, inRange, Array.getElem_toList inRange, fun u before => ?_⟩
    simpa using none u before _ (Array.getElem?_eq_getElem (before.trans inRange))

/-- A focus text is taken for a path before it is taken for a name. -/
theorem resolveFocus_eq_some_iff : resolveFocus g text = some module ↔
    Text.trim text ≠ "" ∧ g.Names (Text.trim text) module := by
  unfold resolveFocus Names
  generalize Text.trim text = name
  by_cases blank : name = ""
  · simp [blank]
  rw [if_neg blank]
  refine Iff.trans ?_ (and_iff_right blank).symm
  cases byPath : g.nodes.toList.find? fun n => n.modulePath == some name with
  | some n =>
    obtain ⟨v, here, lies, _⟩ := find?_nodes_iff.1 byPath
    have lies : n.modulePath = some name := beq_iff_eq.1 lies
    have has : g.HasModule name := ⟨v, n, here, lies⟩
    simp [has, lies, eq_comm]
  | none =>
    have hasNot : ¬ g.HasModule name := by
      rintro ⟨v, n, here, lies⟩
      have listed : n ∈ g.nodes.toList := exists_node?_iff.1 ⟨v, here⟩
      exact List.find?_eq_none.1 byPath n listed (beq_iff_eq.2 lies)
    dsimp only
    rw [Option.none_or, Option.bind_eq_some_iff]
    simp only [hasNot, false_and, false_or, not_false_eq_true, true_and]
    constructor
    · rintro ⟨n, byName, lies⟩
      obtain ⟨v, here, shown, none⟩ := find?_nodes_iff.1 byName
      rw [Bool.and_eq_true, beq_iff_eq] at shown
      refine ⟨v, n, here, shown.1, lies, fun u before m earlier named => ?_⟩
      simpa [named] using none u before m earlier
    · rintro ⟨v, n, here, shown, lies, none⟩
      refine ⟨n, find?_nodes_iff.2 ⟨v, here, by simp [shown, lies], fun u before m earlier => ?_⟩, lies⟩
      by_cases named : m.moduleName = some name
      · simp [none u before m earlier named]
      · simp [named]

end Graph

/-! ### What the stages reject -/

namespace EndpointMatch

/-- The modules that the ends of a call lie in satisfy a condition: both, or at least one of them. -/
def Meets (m : EndpointMatch) (g : Graph) (e : Edge) (wanted : String → Prop) : Prop :=
  match m with
  | both => ∀ n, g.EndOf e n → ∃ path, n.modulePath = some path ∧ wanted path
  | either => ∃ n, g.EndOf e n ∧ ∃ path, n.modulePath = some path ∧ wanted path

end EndpointMatch

namespace FilterConfig

/-- The module in focus: the one that the text names, unless it is blank. -/
def Focuses (c : FilterConfig) (g : Graph) (module : String) : Prop :=
  ∃ text, c.focus = some text ∧ Text.trim text ≠ "" ∧ g.Names (Text.trim text) module

/-- **What a stage rejects**, whatever the other stages say. -/
def Rejects (c : FilterConfig) (g : Graph) (e : Edge) : DropReason → Prop
  | .dangling => ¬ (g.contains e.caller ∧ g.contains e.callee)
  | .synthetic => g.Artificial e
  | .standardLibrary => c.excludeStd = true ∧ ∃ n, g.EndOf e n ∧
      (n.isStd = true ∨ ∃ path, n.modulePath = some path ∧
        (ModulePath.Standard path ∨ ModulePath.Internal path))
  | .unexported => c.excludeUnexported = true ∧ ∃ n, g.EndOf e n ∧ n.exported = false
  | .notIncluded => c.includePrefixes ≠ [] ∧ ¬ c.endpointMatch.Meets g e fun path =>
      ∃ beginning ∈ c.includePrefixes, beginning.toList <+: path.toList
  | .outsideLimit => c.limitKeywords ≠ [] ∧ ¬ c.endpointMatch.Meets g e fun path =>
      ∃ part ∈ c.limitKeywords, part.toList <:+: path.toList
  | .ignored => ∃ n, g.EndOf e n ∧ ∃ path, n.modulePath = some path ∧
      ∃ part ∈ c.ignore, part.toList <:+: path.toList
  | .outOfFocus => ∃ module, c.Focuses g module ∧ g.Misses module e

end FilterConfig

namespace Filter

variable {g : Graph} {c : FilterConfig} {e : Edge} {n m : Node} {p q : String}

section

variable (caller : g.node? e.caller = some n) (callee : g.node? e.callee = some m)
include caller callee

theorem exists_endOf {holds : Node → Prop} :
    (∃ k, g.EndOf e k ∧ holds k) ↔ holds n ∨ holds m := by
  simp only [Graph.endOf_iff caller callee, or_and_right, exists_or, exists_eq_left]

theorem forall_endOf {holds : Node → Prop} :
    (∀ k, g.EndOf e k → holds k) ↔ holds n ∧ holds m := by
  simp only [Graph.endOf_iff caller callee, or_imp, forall_and, forall_eq]

theorem unexported_iff : (c.excludeUnexported && !(n.exported && m.exported)) = true ↔
    c.Rejects g e .unexported := by
  simp only [FilterConfig.Rejects, exists_endOf caller callee, Bool.and_eq_true, Bool.not_and,
    Bool.or_eq_true, Bool.not_eq_true']

variable (callerPath : n.modulePath = some p) (calleePath : m.modulePath = some q)
include callerPath calleePath

theorem standardLibrary_iff : (c.excludeStd && (isStdNode n || isStdNode m ||
      ModulePath.isInternal p || ModulePath.isInternal q)) = true ↔
    c.Rejects g e .standardLibrary := by
  simp only [FilterConfig.Rejects, exists_endOf caller callee, isStdNode, callerPath, calleePath,
    Option.any_some, Option.some.injEq, exists_eq_left', Bool.and_eq_true, Bool.or_eq_true,
    ModulePath.isStandard_iff, ModulePath.isInternal_iff]
  tauto

theorem combine_iff {mode : EndpointMatch} {test : String → Bool} {wanted : String → Prop}
    (tests : ∀ path, test path = true ↔ wanted path) :
    mode.combine (test p) (test q) = true ↔ mode.Meets g e wanted := by
  cases mode with
  | both =>
    simp only [EndpointMatch.combine, EndpointMatch.Meets, forall_endOf caller callee, callerPath,
      calleePath, Option.some.injEq, exists_eq_left', Bool.and_eq_true, tests]
  | either =>
    simp only [EndpointMatch.combine, EndpointMatch.Meets, exists_endOf caller callee, callerPath,
      calleePath, Option.some.injEq, exists_eq_left', Bool.or_eq_true, tests]

/-- A list of wanted modules rejects a call if it is not empty and the ends do not match. -/
theorem wanted_iff {list : List String} {mode : EndpointMatch} {test : String → Bool}
    {wanted : String → Prop} (tests : ∀ path, test path = true ↔ wanted path) :
    (!list.isEmpty && !mode.combine (test p) (test q)) = true ↔
      list ≠ [] ∧ ¬ mode.Meets g e wanted := by
  rw [Bool.and_eq_true, Bool.not_eq_true', List.isEmpty_eq_false_iff, Bool.not_eq_true',
    ← Bool.not_eq_true, combine_iff caller callee callerPath calleePath tests]

theorem notIncluded_iff : (!c.includePrefixes.isEmpty && !c.endpointMatch.combine
      (begins c.includePrefixes p) (begins c.includePrefixes q)) = true ↔
    c.Rejects g e .notIncluded :=
  wanted_iff caller callee callerPath calleePath fun _ => begins_iff

theorem outsideLimit_iff : (!c.limitKeywords.isEmpty && !c.endpointMatch.combine
      (mentions c.limitKeywords p) (mentions c.limitKeywords q)) = true ↔
    c.Rejects g e .outsideLimit :=
  wanted_iff caller callee callerPath calleePath fun _ => mentions_iff

theorem ignored_iff : (mentions c.ignore p || mentions c.ignore q) = true ↔
    c.Rejects g e .ignored := by
  simp only [FilterConfig.Rejects, exists_endOf caller callee, callerPath, calleePath,
    Option.some.injEq, exists_eq_left', Bool.or_eq_true, mentions_iff]

end

/-! ### The focus -/

theorem liesIn_iff {f : Filter} {module : String} {v : Nat} : f.liesIn module v = true ↔
    ∃ n, f.graph.node? v = some n ∧ n.modulePath = some module := by
  rw [liesIn, beq_iff_eq, Option.bind_eq_some_iff]

/-- Calls listed at a node that are not artificial and pass a test. -/
theorem any_real_iff (wf : g.WellFormed) {listed : List (Edge × Nat)} {at_ : Edge → Prop}
    (lists : ∀ e i, (e, i) ∈ listed ↔ g.edges[i]? = some e ∧ at_ e) (test : Edge → Bool) :
    (listed.any fun (e, _) => !g.isSyntheticEdge e && test e) = true ↔
      ∃ e ∈ g.edges, ¬ g.Artificial e ∧ at_ e ∧ test e = true := by
  have real : ∀ {e}, e ∈ g.edges → ((!g.isSyntheticEdge e) = true ↔ ¬ g.Artificial e) := by
    intro e here
    rw [Bool.not_eq_true', ← Bool.not_eq_true, wf.isSyntheticEdge_iff here]
  rw [List.any_eq_true]
  constructor
  · rintro ⟨⟨e, i⟩, inList, passes⟩
    obtain ⟨atI, atNode⟩ := (lists e i).1 inList
    have here : e ∈ g.edges := Array.mem_of_getElem? atI
    rw [Bool.and_eq_true, real here] at passes
    exact ⟨e, here, passes.1, atNode, passes.2⟩
  · rintro ⟨e, here, notMade, atNode, passes⟩
    obtain ⟨i, atI⟩ := Array.mem_iff_getElem?.1 here
    refine ⟨(e, i), (lists e i).2 ⟨atI, atNode⟩, ?_⟩
    rw [Bool.and_eq_true, real here]
    exact ⟨notMade, passes⟩

/-- A call is in focus if an end of it lies in the module, or if it is a bridge. -/
theorem inFocus_iff {f : Filter} (wf : f.graph.WellFormed) {module : String} :
    f.inFocus module e = true ↔ ¬ f.graph.Misses module e := by
  have called : f.calledFrom module e.caller = true ↔ _ :=
    any_real_iff wf (fun _ _ => Graph.mem_incoming) fun e => f.liesIn module e.caller
  have calls : f.callsInto module e.callee = true ↔ _ :=
    any_real_iff wf (fun _ _ => Graph.mem_outgoing) fun e => f.liesIn module e.callee
  have touches : (∃ n, f.graph.EndOf e n ∧ n.modulePath = some module) ↔
      f.liesIn module e.caller = true ∨ f.liesIn module e.callee = true := by
    simp only [Graph.EndOf, or_and_right, exists_or, liesIn_iff]
  rw [inFocus, Bool.or_eq_true, Bool.or_eq_true, Bool.and_eq_true, called, calls, ← touches,
    Graph.Misses, Graph.Bridges, not_and_or, not_not]
  simp only [liesIn_iff, not_forall, ne_eq, not_not, exists_prop]

/-- The stage of the focus rejects what misses the module in focus, if there is one. -/
theorem outOfFocus_iff (wf : g.WellFormed) :
    ((Filter.bind g c).value.focus.any fun module =>
        !(Filter.bind g c).value.inFocus module e) = true ↔ c.Rejects g e .outOfFocus := by
  have same : (Filter.bind g c).value.graph = g := graph_bind g c
  have misses : ∀ module, (!(Filter.bind g c).value.inFocus module e) = true ↔
      g.Misses module e := by
    intro module
    rw [Bool.not_eq_true', ← Bool.not_eq_true, inFocus_iff (by rwa [same]), not_not, same]
  have focus : ∀ module, (Filter.bind g c).value.focus = some module ↔ c.Focuses g module := by
    intro module
    rw [focus_bind, Option.bind_eq_some_iff]
    exact exists_congr fun text => and_congr_right fun _ => Graph.resolveFocus_eq_some_iff
  rw [Option.any_eq_true]
  exact exists_congr fun module => and_congr (focus module) (misses module)

/-! ### The verdict -/

/-- The ends of a call are nodes. -/
theorem not_rejects_dangling (wf : g.WellFormed) (here : e ∈ g.edges) :
    ¬ c.Rejects g e .dangling := fun dangles =>
  dangles ⟨decide_eq_true (wf.ends e here).1, decide_eq_true (wf.ends e here).2⟩

/-- The ends of a call that is not artificial lie in modules. -/
theorem exists_path {k : Node} (notMade : ¬ g.Artificial e) (isEnd : g.EndOf e k) :
    ∃ path, k.modulePath = some path := by
  rw [← Option.isSome_iff_exists, Option.isSome_iff_ne_none]
  exact fun none => notMade (Or.inr ⟨k, isEnd, Or.inr none⟩)

theorem find?_cons_eq_ite {test : DropReason → Bool} {reason : DropReason}
    {rest : List DropReason} : (reason :: rest).find? test =
      if test reason = true then some reason else rest.find? test := by
  rw [List.find?_cons]
  cases test reason <;> rfl

open Classical in
/-- **The verdict on a call names the first stage that rejects it**, in the order of the stages. -/
theorem verdict_eq_find? (wf : g.WellFormed) (here : e ∈ g.edges) :
    (Filter.bind g c).value.verdict e =
      DropReason.all.find? fun reason => decide (c.Rejects g e reason) := by
  obtain ⟨n, caller⟩ := Graph.exists_node? (wf.ends e here).1
  obtain ⟨m, callee⟩ := Graph.exists_node? (wf.ends e here).2
  unfold verdict
  rw [graph_bind, caller, callee]
  dsimp only
  simp only [DropReason.all, find?_cons_eq_ite, decide_eq_true_eq, List.find?_nil]
  rw [if_neg (not_rejects_dangling wf here)]
  by_cases made : g.Artificial e
  · have rejected : c.Rejects g e .synthetic := made
    rw [if_pos ((wf.isSyntheticEdge_iff here).2 made), if_pos rejected]
  have spared : ¬ c.Rejects g e .synthetic := made
  rw [if_neg (mt (wf.isSyntheticEdge_iff here).1 made), if_neg spared]
  obtain ⟨p, callerPath⟩ := exists_path made (Or.inl caller)
  obtain ⟨q, calleePath⟩ := exists_path made (Or.inr callee)
  rw [callerPath, calleePath]
  dsimp only
  unfold judge
  simp only [config_bind, standardLibrary_iff caller callee callerPath calleePath,
    unexported_iff caller callee, notIncluded_iff caller callee callerPath calleePath,
    outsideLimit_iff caller callee callerPath calleePath,
    ignored_iff caller callee callerPath calleePath, outOfFocus_iff wf]

/-- **A filter drops exactly what its stages reject**, and says which stage was the first to reject it:
a call is dropped for a reason exactly if that stage rejects it and no stage before it does, and kept
exactly if no stage rejects it. A call of a graph is never dropped for want of an end. -/
theorem verdict_first_stage (wf : g.WellFormed) (here : e ∈ g.edges) (c : FilterConfig) :
    let filter := (Filter.bind g c).value
    filter.verdict e ≠ some .dangling ∧
    (∀ reason, filter.verdict e = some reason ↔
      c.Rejects g e reason ∧ ∀ earlier, earlier.Before reason → ¬ c.Rejects g e earlier) ∧
    (filter.verdict e = none ↔ ∀ reason, ¬ c.Rejects g e reason) := by
  intro filter
  have first : ∀ reason, filter.verdict e = some reason ↔
      c.Rejects g e reason ∧ ∀ earlier, earlier.Before reason → ¬ c.Rejects g e earlier := by
    intro reason
    rw [verdict_eq_find? wf here, DropReason.find?_all_eq_some_iff]
    simp only [decide_eq_true_eq, decide_eq_false_iff_not]
  refine ⟨fun dangles => ?_, first, ?_⟩
  · exact not_rejects_dangling wf here ((first .dangling).1 dangles).1
  · rw [verdict_eq_find? wf here, DropReason.find?_all_eq_none_iff]
    simp only [decide_eq_false_iff_not]

/-- A program whose core calls a helper, from which a second helper leads back to it and a third one
does not. -/
def detour : Graph where
  nodes := #[
    { id := "app::core::run", name := "run", modulePath := some "app::core", moduleName := some "core" },
    { id := "app::util::prepare", name := "prepare", modulePath := some "app::util" },
    { id := "app::util::finish", name := "finish", modulePath := some "app::util" },
    { id := "app::util::count", name := "count", modulePath := some "app::util" }]
  edges := #[⟨0, 1, {}⟩, ⟨1, 2, {}⟩, ⟨2, 0, {}⟩, ⟨1, 3, {}⟩]

/-- A focus on the module shown by a name. -/
def onCore : FilterConfig where
  focus := some " core "

/-- The call of the third helper misses the core; that of the second is a bridge. -/
theorem verdict_first_stage_detour :
    detour.WellFormed ∧ ⟨1, 2, {}⟩ ∈ detour.edges ∧ ⟨1, 3, {}⟩ ∈ detour.edges ∧
    (∀ reason, ¬ onCore.Rejects detour ⟨1, 2, {}⟩ reason) ∧
    onCore.Rejects detour ⟨1, 3, {}⟩ .outOfFocus ∧
    ∀ earlier, earlier.Before .outOfFocus → ¬ onCore.Rejects detour ⟨1, 3, {}⟩ earlier := by
  have wf : detour.WellFormed := by decide +kernel
  have bridge : ⟨1, 2, {}⟩ ∈ detour.edges := by decide +kernel
  have aside : ⟨1, 3, {}⟩ ∈ detour.edges := by decide +kernel
  have kept : (Filter.bind detour onCore).value.verdict ⟨1, 2, {}⟩ = none := by decide +kernel
  have dropped : (Filter.bind detour onCore).value.verdict ⟨1, 3, {}⟩ = some .outOfFocus := by
    decide +kernel
  exact ⟨wf, bridge, aside, (verdict_first_stage wf bridge onCore).2.2.1 kept,
    ((verdict_first_stage wf aside onCore).2.1 .outOfFocus).1 dropped⟩

/-- A program with a function in a module whose path is empty. -/
def unnamed : Graph where
  nodes := #[{ id := "app::main", name := "main", modulePath := some "app" },
    { id := "app::run", name := "run", modulePath := some "app" },
    { id := "start", name := "start", modulePath := some "" }]
  edges := #[⟨0, 1, {}⟩]

/-- **A blank focus is ignored**, even if there is a module of that path which a call misses. -/
theorem blank_focus_is_ignored :
    unnamed.WellFormed ∧ ⟨0, 1, {}⟩ ∈ unnamed.edges ∧
    unnamed.Names (Text.trim " ") "" ∧ unnamed.Misses "" ⟨0, 1, {}⟩ ∧
    (Filter.bind unnamed { focus := some " " }).value.verdict ⟨0, 1, {}⟩ = none := by
  have blank : Text.trim " " = "" := by decide +kernel
  refine ⟨by decide +kernel, by decide +kernel, ?_, ⟨?_, ?_⟩, by decide +kernel⟩
  · rw [blank]
    exact Or.inl ⟨⟨2, _, rfl, rfl⟩, rfl⟩
  · rintro n (caller | callee)
    · cases caller
      decide
    · cases callee
      decide
  · rintro ⟨⟨e, here, _, back, _⟩, _⟩
    rw [List.mem_singleton.1 (Array.mem_toList_iff.2 here)] at back
    cases back

end Filter

end CallGraph
