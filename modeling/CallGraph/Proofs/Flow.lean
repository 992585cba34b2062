import CallGraph.Flow
import Mathlib.Data.List.Sort
import Mathlib.Order.Lattice.Nat

/-!
**A flow keeps the first edge of every pair.**

The theory of `Flow`. What has been put into a flow is a set of edge numbers for every pair of caller
and callee; the flow has one link for each pair of which the set is not empty, with the least number
in it, and its links are in the order of their pairs.

* `Flow.Holds` — the relation between a flow and what has been put into it, `Holds.unique`;
* `holds_ofEdges`, `holds_union` — the flow of some edges, and that of either of two flows;
* `mem_nodes` — the nodes of a flow are the ends of its links.
-/

namespace CallGraph

namespace Link

theorem samePair_iff {a b : Link} :
    a.samePair b = true ↔ a.caller = b.caller ∧ a.callee = b.callee := by
  simp [samePair]

theorem before_iff {a b : Link} :
    a.before b = true ↔ a.caller < b.caller ∨ a.caller = b.caller ∧ a.callee < b.callee := by
  simp [before]

theorem before_trans {a b c : Link} (first : a.before b = true) (second : b.before c = true) :
    a.before c = true := by
  rw [before_iff] at *
  omega

/-- Links in order join different pairs. -/
theorem not_samePair_of_before {a b : Link} (order : a.before b = true) :
    ¬ b.samePair a = true := by
  rw [before_iff] at order
  rw [samePair_iff]
  omega

theorem samePair_comm {a b : Link} : a.samePair b = true ↔ b.samePair a = true := by
  rw [samePair_iff, samePair_iff, eq_comm, @eq_comm _ a.callee]

theorem samePair_trans {a b c : Link} (first : a.samePair b = true)
    (second : b.samePair c = true) : a.samePair c = true := by
  rw [samePair_iff] at *
  exact ⟨first.1.trans second.1, first.2.trans second.2⟩

/-- Two pairs that differ are in order, one way or the other. -/
theorem before_of_not {a b : Link} (different : ¬ a.samePair b = true)
    (notBefore : ¬ a.before b = true) : b.before a = true := by
  rw [samePair_iff] at different
  rw [before_iff] at *
  omega

end Link

namespace Flow

/-- Links in the order of their pairs. -/
def Ordered (links : List Link) : Prop :=
  links.Pairwise fun a b => a.before b = true

/-! ### Putting a link into its place -/

/-- A link of a new pair is added. -/
theorem mem_insertLink_new {link m : Link} {links : List Link}
    (new : ∀ o ∈ links, ¬ link.samePair o = true) :
    m ∈ insertLink link links ↔ m = link ∨ m ∈ links := by
  induction links with
  | nil => simp [insertLink]
  | cons other rest hyp =>
    rw [insertLink, if_neg (new other List.mem_cons_self)]
    split
    · rw [List.mem_cons]
    · rw [List.mem_cons, hyp fun o here => new o (List.mem_cons_of_mem _ here), List.mem_cons]
      exact or_left_comm

/-- A link of a known pair gives way to the one with the smaller number. -/
theorem mem_insertLink_known {link o m : Link} {links : List Link} (ordered : Ordered links)
    (known : o ∈ links) (same : link.samePair o = true) :
    m ∈ insertLink link links ↔
      m = { o with edge := min link.edge o.edge } ∨ (m ∈ links ∧ ¬ link.samePair m = true) := by
  induction links with
  | nil => cases known
  | cons other rest hyp =>
    obtain ⟨first, later⟩ := List.pairwise_cons.1 ordered
    have apart : ∀ m ∈ rest, link.samePair other = true → ¬ link.samePair m = true := by
      intro m inRest sameOther sameM
      exact Link.not_samePair_of_before (first m inRest)
        (Link.samePair_trans (Link.samePair_comm.1 sameM) sameOther)
    rw [insertLink]
    by_cases here : link.samePair other = true
    · have equal : o = other := by
        rcases List.mem_cons.1 known with equal | inRest
        · exact equal
        · exact absurd same (apart o inRest here)
      rw [if_pos here, equal, List.mem_cons, List.mem_cons]
      constructor
      · rintro (changed | inRest)
        · exact Or.inl changed
        · exact Or.inr ⟨Or.inr inRest, apart m inRest here⟩
      · rintro (changed | ⟨equal | inRest, other⟩)
        · exact Or.inl changed
        · exact absurd (equal ▸ here) other
        · exact Or.inr inRest
    · have inRest : o ∈ rest := by
        rcases List.mem_cons.1 known with equal | inRest
        · exact absurd (equal ▸ same) here
        · exact inRest
      have notBefore : ¬ link.before other = true := fun order =>
        Link.not_samePair_of_before (Link.before_trans order (first o inRest))
          (Link.samePair_comm.1 same)
      rw [if_neg here, if_neg notBefore, List.mem_cons, List.mem_cons, hyp later inRest]
      constructor
      · rintro (equal | changed | ⟨inRest, other⟩)
        · exact Or.inr ⟨Or.inl equal, equal ▸ here⟩
        · exact Or.inl changed
        · exact Or.inr ⟨Or.inr inRest, other⟩
      · rintro (changed | ⟨equal | inRest, other⟩)
        · exact Or.inr (Or.inl changed)
        · exact Or.inl equal
        · exact Or.inr (Or.inr ⟨inRest, other⟩)

/-- The links of other pairs stay. -/
theorem mem_insertLink_other {link m : Link} {links : List Link} (ordered : Ordered links)
    (other : ¬ link.samePair m = true) : m ∈ insertLink link links ↔ m ∈ links := by
  by_cases known : ∃ o ∈ links, link.samePair o = true
  · obtain ⟨o, inLinks, same⟩ := known
    rw [mem_insertLink_known ordered inLinks same]
    constructor
    · rintro (equal | ⟨here, _⟩)
      · exact absurd (equal ▸ same) other
      · exact here
    · exact fun here => Or.inr ⟨here, other⟩
  · rw [mem_insertLink_new fun o inLinks same => known ⟨o, inLinks, same⟩]
    refine or_iff_right fun equal => other ?_
    exact equal ▸ Link.samePair_iff.2 ⟨rfl, rfl⟩

/-- The pairs of a list with one link more are its pairs and that of the link. -/
theorem exists_samePair_of_mem {link m : Link} {links : List Link}
    (here : m ∈ insertLink link links) :
    m.samePair link = true ∨ ∃ o ∈ links, m.samePair o = true := by
  induction links with
  | nil =>
    rw [List.mem_singleton.1 here]
    exact Or.inl (Link.samePair_iff.2 ⟨rfl, rfl⟩)
  | cons other rest hyp =>
    have refl : ∀ a : Link, a.samePair a = true := fun _ => Link.samePair_iff.2 ⟨rfl, rfl⟩
    rw [insertLink] at here
    split at here
    · rcases List.mem_cons.1 here with equal | inRest
      · exact Or.inr ⟨other, List.mem_cons_self, equal ▸ Link.samePair_iff.2 ⟨rfl, rfl⟩⟩
      · exact Or.inr ⟨m, List.mem_cons_of_mem _ inRest, refl m⟩
    · split at here
      · rcases List.mem_cons.1 here with equal | inLinks
        · exact Or.inl (equal ▸ refl m)
        · exact Or.inr ⟨m, inLinks, refl m⟩
      · rcases List.mem_cons.1 here with equal | inserted
        · exact Or.inr ⟨m, equal ▸ List.mem_cons_self, refl m⟩
        · rcases hyp inserted with sameLink | ⟨o, inRest, sameO⟩
          · exact Or.inl sameLink
          · exact Or.inr ⟨o, List.mem_cons_of_mem _ inRest, sameO⟩

theorem before_congr {a b c : Link} (same : b.samePair c = true) :
    a.before b = true ↔ a.before c = true := by
  obtain ⟨caller, callee⟩ := Link.samePair_iff.1 same
  rw [Link.before_iff, Link.before_iff, caller, callee]

/-- Links stay in order. -/
theorem ordered_insertLink {link : Link} {links : List Link} (ordered : Ordered links) :
    Ordered (insertLink link links) := by
  induction links with
  | nil => exact List.pairwise_singleton _ _
  | cons other rest hyp =>
    obtain ⟨first, later⟩ := List.pairwise_cons.1 ordered
    rw [insertLink]
    split
    · exact List.pairwise_cons.2 ⟨first, later⟩
    · rename_i different
      split
      · rename_i order
        refine List.pairwise_cons.2 ⟨fun m here => ?_, ordered⟩
        rcases List.mem_cons.1 here with equal | inRest
        · exact equal ▸ order
        · exact Link.before_trans order (first m inRest)
      · rename_i notBefore
        refine List.pairwise_cons.2 ⟨fun m here => ?_, hyp later⟩
        rcases exists_samePair_of_mem here with sameLink | ⟨o, inRest, sameO⟩
        · exact (before_congr sameLink).2 (Link.before_of_not different notBefore)
        · exact (before_congr sameO).2 (first o inRest)

/-! ### What has been put into a flow -/

/-- **A flow holds edges of pairs**: of each pair for which there are any it has the one with the
least number. -/
structure Holds (f : Flow) (edges : Nat → Nat → Set Nat) : Prop where
  ordered : Ordered f.links
  mem : ∀ u v i, ⟨u, v, i⟩ ∈ f.links ↔ IsLeast (edges u v) i

theorem holds_empty : Holds empty fun _ _ => ∅ :=
  ⟨List.Pairwise.nil, fun _ _ _ => ⟨fun here => absurd here List.not_mem_nil,
    fun least => absurd least.1 (Set.notMem_empty _)⟩⟩

/-- The same edges, described in another way. -/
theorem Holds.congr {f : Flow} {edges edges' : Nat → Nat → Set Nat} (holds : f.Holds edges)
    (same : ∀ u v i, i ∈ edges u v ↔ i ∈ edges' u v) : f.Holds edges' := by
  have equal : edges = edges' := funext fun u => funext fun v => Set.ext (same u v)
  exact equal ▸ holds

/-- **A flow is known by what it holds.** -/
theorem Holds.unique {f g : Flow} {edges : Nat → Nat → Set Nat} (left : f.Holds edges)
    (right : g.Holds edges) : f = g := by
  have irrefl : Std.Irrefl fun a b : Link => a.before b = true := by
    refine ⟨fun a order => Link.not_samePair_of_before order ?_⟩
    exact Link.samePair_iff.2 ⟨rfl, rfl⟩
  have antisymm : Std.Antisymm fun a b : Link => a.before b = true := by
    refine ⟨fun a b first second => ?_⟩
    exact absurd (Link.before_trans first second) (irrefl.irrefl a)
  obtain ⟨links⟩ := f
  obtain ⟨others⟩ := g
  refine congrArg Flow.mk (List.Pairwise.eq_of_mem_iff left.ordered right.ordered ?_)
  rintro ⟨u, v, i⟩
  exact (left.mem u v i).trans (right.mem u v i).symm

/-- A set with one more number has the smaller of that number and the least one before. -/
theorem isLeast_insert_iff {numbers : Set Nat} {i j k : Nat} (least : IsLeast numbers i) :
    IsLeast (Insert.insert j numbers) k ↔ k = min j i :=
  ⟨fun other => other.unique (least.insert j), fun same => same ▸ least.insert j⟩

/-- A set of numbers has a least one unless it is empty. -/
theorem exists_isLeast_le {numbers : Set Nat} {i : Nat} (here : i ∈ numbers) :
    ∃ j ≤ i, IsLeast numbers j :=
  ⟨sInf numbers, Nat.sInf_le here, Nat.sInf_mem ⟨i, here⟩, fun _ there => Nat.sInf_le there⟩

/-- Of some numbers only the least one matters. -/
theorem isLeast_union_iff {numbers more : Set Nat} {i : Nat} :
    IsLeast (numbers ∪ {j | IsLeast more j}) i ↔ IsLeast (numbers ∪ more) i := by
  constructor
  · rintro ⟨here, least⟩
    refine ⟨here.imp_right fun first => first.1, fun j there => ?_⟩
    rcases there with there | there
    · exact least (Or.inl there)
    · obtain ⟨k, below, first⟩ := exists_isLeast_le there
      exact (least (Or.inr first)).trans below
  · rintro ⟨here, least⟩
    refine ⟨here.imp_right fun there => ⟨there, fun j more => least (Or.inr more)⟩, ?_⟩
    exact fun j there => least (there.imp_right fun first => first.1)

/-- A pair of which there is no link has no edges. -/
theorem Holds.eq_empty {f : Flow} {edges : Nat → Nat → Set Nat} (holds : f.Holds edges)
    {u v : Nat} (none : ∀ i, ⟨u, v, i⟩ ∉ f.links) : edges u v = ∅ := by
  refine Set.eq_empty_of_forall_notMem fun j here => ?_
  obtain ⟨i, _, least⟩ := exists_isLeast_le here
  exact none i ((holds.mem u v i).2 least)

/-- The number of a new link competes with the one that its pair has. -/
theorem mem_insertLink_iff_isLeast {f : Flow} {edges : Nat → Nat → Set Nat} (holds : f.Holds edges)
    {u v i j : Nat} : ⟨u, v, i⟩ ∈ insertLink ⟨u, v, j⟩ f.links ↔
      IsLeast (Insert.insert j (edges u v)) i := by
  by_cases known : ∃ o ∈ f.links, (⟨u, v, j⟩ : Link).samePair o = true
  · obtain ⟨⟨a, b, k⟩, inLinks, same⟩ := known
    obtain ⟨rfl, rfl⟩ := Link.samePair_iff.1 same
    rw [isLeast_insert_iff ((holds.mem _ _ _).1 inLinks),
      mem_insertLink_known holds.ordered inLinks same]
    simp [Link.samePair]
  · have new : ∀ o ∈ f.links, ¬ (⟨u, v, j⟩ : Link).samePair o = true :=
      fun o inLinks same => known ⟨o, inLinks, same⟩
    have absent : ∀ k, ⟨u, v, k⟩ ∉ f.links :=
      fun k inLinks => new _ inLinks (Link.samePair_iff.2 ⟨rfl, rfl⟩)
    rw [mem_insertLink_new new, holds.eq_empty absent, insert_empty_eq, or_iff_left (absent i),
      Link.mk.injEq]
    simp only [true_and]
    exact ⟨fun same => same ▸ isLeast_singleton, fun least => least.1⟩

/-- One link more. -/
theorem holds_insertLink {f : Flow} {edges : Nat → Nat → Set Nat} (holds : f.Holds edges)
    (link : Link) :
    Holds ⟨insertLink link f.links⟩ fun u v => {i | link = ⟨u, v, i⟩ ∨ i ∈ edges u v} := by
  refine ⟨ordered_insertLink holds.ordered, fun u v i => ?_⟩
  show ⟨u, v, i⟩ ∈ insertLink link f.links ↔ _
  obtain ⟨caller, callee, number⟩ := link
  by_cases here : caller = u ∧ callee = v
  · obtain ⟨rfl, rfl⟩ := here
    rw [mem_insertLink_iff_isLeast holds]
    refine iff_of_eq (congrArg (IsLeast · i) (Set.ext fun j => ?_))
    simp [eq_comm]
  · have other : ¬ (⟨caller, callee, number⟩ : Link).samePair ⟨u, v, i⟩ = true :=
      fun same => here (Link.samePair_iff.1 same)
    rw [mem_insertLink_other holds.ordered other, holds.mem]
    refine iff_of_eq (congrArg (IsLeast · i) (Set.ext fun j => ?_))
    simp only [Set.mem_ofPred_eq, Link.mk.injEq]
    exact (or_iff_right fun same => here ⟨same.1, same.2.1⟩).symm

/-- Some links more, as flows are united and edges are added. -/
theorem holds_foldl {f : Flow} {edges : Nat → Nat → Set Nat} (holds : f.Holds edges)
    (links : List Link) :
    Holds ⟨links.foldl (fun links link => insertLink link links) f.links⟩
      fun u v => {i | i ∈ edges u v ∨ ⟨u, v, i⟩ ∈ links} := by
  induction links generalizing f edges with
  | nil => exact holds.congr fun u v i => by simp
  | cons link rest hyp =>
    refine (hyp (holds_insertLink holds link)).congr fun u v i => ?_
    simp only [Set.mem_ofPred_eq, List.mem_cons, or_assoc, @eq_comm _ link]
    exact or_left_comm

/-- **Either of two flows.** -/
theorem holds_union {f g : Flow} {edges edges' : Nat → Nat → Set Nat} (left : f.Holds edges)
    (right : g.Holds edges') : (f.union g).Holds fun u v => edges u v ∪ edges' u v := by
  have all := holds_foldl left g.links
  refine ⟨all.ordered, fun u v i => (all.mem u v i).trans ?_⟩
  have numbers : {i | i ∈ edges u v ∨ ⟨u, v, i⟩ ∈ g.links} =
      edges u v ∪ {i | IsLeast (edges' u v) i} := by
    ext j
    exact or_congr_right (right.mem u v j)
  rw [numbers]
  exact isLeast_union_iff

/-- **The flow of some edges.** -/
theorem holds_ofEdges (es : List (Edge × Nat)) :
    (ofEdges es).Holds fun u v => {i | ∃ e, (e, i) ∈ es ∧ e.caller = u ∧ e.callee = v} := by
  have links : ∀ f : Flow, (es.foldl insert f).links = (es.map fun e =>
      (⟨e.1.caller, e.1.callee, e.2⟩ : Link)).foldl (fun links link => insertLink link links)
        f.links := by
    intro f
    induction es generalizing f with
    | nil => rfl
    | cons e rest hyp => exact hyp (f.insert e)
  have all := holds_foldl holds_empty (es.map fun e => ⟨e.1.caller, e.1.callee, e.2⟩)
  rw [← links] at all
  refine all.congr fun u v i => ?_
  simp

/-! ### The nodes of a flow -/

theorem mem_insertNumber {v w : Nat} {ns : List Nat} :
    w ∈ insertNumber v ns ↔ w = v ∨ w ∈ ns := by
  induction ns with
  | nil => rw [insertNumber, List.mem_singleton, or_iff_left List.not_mem_nil]
  | cons x rest hyp =>
    rw [insertNumber]
    split
    · rw [List.mem_cons]
    · split
      · rename_i same
        rw [List.mem_cons, same, ← or_assoc, or_self]
      · rw [List.mem_cons, hyp, List.mem_cons, or_left_comm]

theorem pairwise_insertNumber {v : Nat} {ns : List Nat} (increasing : ns.Pairwise (· < ·)) :
    (insertNumber v ns).Pairwise (· < ·) := by
  induction ns with
  | nil => exact List.pairwise_singleton _ _
  | cons x rest hyp =>
    obtain ⟨first, later⟩ := List.pairwise_cons.1 increasing
    rw [insertNumber]
    split
    · rename_i smaller
      refine List.pairwise_cons.2 ⟨fun y here => ?_, increasing⟩
      rcases List.mem_cons.1 here with same | inRest
      · exact same ▸ smaller
      · exact smaller.trans (first y inRest)
    · split
      · exact increasing
      · refine List.pairwise_cons.2 ⟨fun y here => ?_, hyp later⟩
        rcases mem_insertNumber.1 here with same | inRest
        · omega
        · exact first y inRest

/-- **The nodes of a flow are the ends of its links**, every one of them once. -/
theorem mem_nodes {f : Flow} {v : Nat} :
    v ∈ f.nodes ↔ ∃ link ∈ f.links, link.caller = v ∨ link.callee = v := by
  have all : ∀ (links : List Link) (ns : List Nat),
      v ∈ links.foldl (fun ns link => insertNumber link.callee (insertNumber link.caller ns)) ns ↔
        v ∈ ns ∨ ∃ link ∈ links, link.caller = v ∨ link.callee = v := by
    intro links
    induction links with
    | nil => simp
    | cons link rest hyp =>
      intro ns
      rw [List.foldl_cons, hyp, mem_insertNumber, mem_insertNumber]
      simp only [List.mem_cons, exists_eq_or_imp, @eq_comm _ v, or_assoc, or_left_comm]
  exact (all f.links []).trans (or_iff_right List.not_mem_nil)

theorem pairwise_nodes (f : Flow) : f.nodes.Pairwise (· < ·) := by
  have all : ∀ (links : List Link) (ns : List Nat), ns.Pairwise (· < ·) →
      (links.foldl (fun ns link =>
        insertNumber link.callee (insertNumber link.caller ns)) ns).Pairwise (· < ·) := by
    intro links
    induction links with
    | nil => exact fun _ increasing => increasing
    | cons link rest hyp =>
      exact fun ns increasing =>
        hyp _ (pairwise_insertNumber (pairwise_insertNumber increasing))
  exact all f.links [] List.Pairwise.nil

end Flow

/-! ### Exact selections -/

namespace Filter

/-- The numbers of the passing edges of a pair. -/
def numbersOf (f : Filter) (u v : Nat) : Set Nat :=
  {i | ∃ e, (e, i) ∈ f.passing ∧ e.caller = u ∧ e.callee = v}

/-- An edge from `u` to `v` passes. -/
def Passing (f : Filter) (u v : Nat) : Prop :=
  (f.numbersOf u v).Nonempty

end Filter

namespace Flow

/-- **A flow selects the pairs that are near** among those of which the filter passes an edge. The
smallest number of such an edge stands for the pair, and the nodes are the ends of the pairs. -/
structure Selects (flow : Flow) (f : Filter) (near : Nat → Nat → Prop) : Prop where
  pairs : ∀ u v, flow.containsEdge u v = true ↔ f.Passing u v ∧ near u v
  representative : ∀ link ∈ flow.links, IsLeast (f.numbersOf link.caller link.callee) link.edge
  nodes : ∀ v, v ∈ flow.nodes ↔ ∃ u, flow.containsEdge u v = true ∨ flow.containsEdge v u = true
  /-- Every pair has one link, and every node is listed once. -/
  ordered : Ordered flow.links ∧ flow.nodes.Pairwise (· < ·)

theorem containsEdge_iff {f : Flow} {u v : Nat} :
    f.containsEdge u v = true ↔ ∃ i, ⟨u, v, i⟩ ∈ f.links := by
  unfold containsEdge
  rw [List.any_eq_true]
  constructor
  · rintro ⟨⟨a, b, i⟩, here, same⟩
    obtain ⟨rfl, rfl⟩ : a = u ∧ b = v := by simpa using same
    exact ⟨i, here⟩
  · rintro ⟨i, here⟩
    exact ⟨_, here, by simp⟩

/-- A flow that holds the passing edges of near pairs selects these pairs. -/
theorem Holds.selects {flow : Flow} {f : Filter} {near : Nat → Nat → Prop}
    (holds : flow.Holds fun u v => {i | i ∈ f.numbersOf u v ∧ near u v}) :
    flow.Selects f near := by
  refine ⟨fun u v => ?_, fun link here => ?_, fun v => ?_, holds.ordered, pairwise_nodes flow⟩
  · rw [containsEdge_iff]
    constructor
    · rintro ⟨i, here⟩
      have chosen := ((holds.mem u v i).1 here).1
      exact ⟨⟨i, chosen.1⟩, chosen.2⟩
    · rintro ⟨⟨i, passing⟩, close⟩
      have chosen : i ∈ {i | i ∈ f.numbersOf u v ∧ near u v} := ⟨passing, close⟩
      obtain ⟨j, _, least⟩ := exists_isLeast_le chosen
      exact ⟨j, (holds.mem u v j).2 least⟩
  · obtain ⟨⟨passing, close⟩, least⟩ := (holds.mem link.caller link.callee link.edge).1 here
    exact ⟨passing, fun i other => least ⟨other, close⟩⟩
  · simp only [containsEdge_iff]
    rw [mem_nodes]
    constructor
    · rintro ⟨⟨a, b, i⟩, here, rfl | rfl⟩
      · exact ⟨b, Or.inr ⟨i, here⟩⟩
      · exact ⟨a, Or.inl ⟨i, here⟩⟩
    · rintro ⟨u, ⟨i, here⟩ | ⟨i, here⟩⟩
      · exact ⟨_, here, Or.inr rfl⟩
      · exact ⟨_, here, Or.inl rfl⟩

end Flow

/-- The selection from a whole graph is the flow of the calls that the filter passes and the depth
map admits. It is given up if the interrupt has tripped, unless there is no node to look at. -/
theorem value_selectWhole (g : Graph) (f : Filter) (depth : Option DepthMap)
    (interrupt : Interrupt) : (selectWhole g f depth interrupt).run.value =
      match if 0 < g.nodes.size then interrupt.tripped? else none with
      | some cause => .error cause
      | none => .ok (Flow.ofEdges ((g.numberedEdges.filter fun e => f.passes e.1).filter
          fun e => depth.all (·.admits e.1))) := by
  unfold selectWhole
  by_cases some : 0 < g.nodes.size
  · rw [if_pos some, if_pos some]
    cases interrupt.tripped? <;> rfl
  · rw [if_neg some, if_neg some]
    rfl

end CallGraph
