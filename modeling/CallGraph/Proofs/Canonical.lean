import CallGraph.Flow.Table
import CallGraph.Proofs.Flow

/-!
**A flow is determined by the edges that have been added to it.**

The theory of `Flow.Table`. Whatever is added to a flow that is kept, and in whatever order, its pairs
are those of the edges that have been added, with the smallest number of each, and its nodes are the
ends of its pairs. This is what adding an edge and uniting two flows preserve, and no two tables have it
in common.

* `insertLink_eq`, `mergeLink_eq` — both ways to the smallest number of a pair lead there;
* `Table.Holds` — the invariant of a table, `Table.Holds.unique`; `Holds.insert`, `Holds.union` — what
  one step does to it;
* `Recipe.holds` — the flows that can be built have it;
* `Recipe.table_canonical` — what such a flow is, and the laws of uniting flows.
-/

namespace CallGraph

namespace Flow

variable {f : Flow} {t t' : Table} {edges edges' : Nat → Nat → Set Nat} {links rest : List Link}
  {link other : Link} {u v i : Nat}

/-! ### The edge of a pair -/

theorem mem_of_edgeOf? (found : edgeOf? links u v = some i) : ⟨u, v, i⟩ ∈ links := by
  obtain ⟨link, first, rfl⟩ := Option.map_eq_some_iff.1 found
  have pair := List.find?_some first
  rw [Bool.and_eq_true, beq_iff_eq, beq_iff_eq] at pair
  obtain ⟨rfl, rfl⟩ := pair
  exact List.mem_of_find?_eq_some first

theorem edgeOf?_eq_none_iff : edgeOf? links u v = none ↔ ∀ i, ⟨u, v, i⟩ ∉ links := by
  rw [edgeOf?, Option.map_eq_none_iff, List.find?_eq_none]
  constructor
  · intro none i here
    exact none _ here (by simp)
  · rintro none ⟨a, b, i⟩ here pair
    rw [Bool.and_eq_true, beq_iff_eq, beq_iff_eq] at pair
    obtain ⟨rfl, rfl⟩ := pair
    exact none i here

/-- The edge of a pair is the one with the least number. -/
theorem Holds.edgeOf?_iff (holds : f.Holds edges) :
    edgeOf? f.links u v = some i ↔ IsLeast (edges u v) i := by
  refine ⟨fun found => (holds.mem u v i).1 (mem_of_edgeOf? found), fun least => ?_⟩
  cases found : edgeOf? f.links u v with
  | none => exact absurd ((holds.mem u v i).2 least) (edgeOf?_eq_none_iff.1 found i)
  | some j => rw [((holds.mem u v j).1 (mem_of_edgeOf? found)).unique least]

theorem Holds.edgeOf?_eq_none_iff (holds : f.Holds edges) :
    edgeOf? f.links u v = none ↔ edges u v = ∅ := by
  rw [Flow.edgeOf?_eq_none_iff]
  refine ⟨holds.eq_empty, fun nothing i here => ?_⟩
  exact Set.notMem_empty i (nothing ▸ ((holds.mem u v i).1 here).1)

theorem edgeOf?_cons_same (same : link.samePair other = true) :
    edgeOf? (other :: rest) link.caller link.callee = some other.edge := by
  obtain ⟨caller, callee⟩ := Link.samePair_iff.1 same
  rw [edgeOf?, List.find?_cons_of_pos (by simp [caller, callee]), Option.map_some]

theorem edgeOf?_cons_other (different : ¬ link.samePair other = true) :
    edgeOf? (other :: rest) link.caller link.callee = edgeOf? rest link.caller link.callee := by
  have skipped : (other.caller == link.caller && other.callee == link.callee) = false :=
    Bool.eq_false_iff.2 fun same => different (Link.samePair_comm.1 same)
  rw [edgeOf?, List.find?_cons, skipped, edgeOf?]

/-- A pair in front of all others has no edge. -/
theorem edgeOf?_of_before (ordered : Ordered (other :: rest)) (order : link.before other = true) :
    edgeOf? (other :: rest) link.caller link.callee = none := by
  rw [Flow.edgeOf?_eq_none_iff]
  intro i here
  have behind : link.before ⟨link.caller, link.callee, i⟩ = true := by
    rcases List.mem_cons.1 here with same | inRest
    · exact same ▸ order
    · exact Link.before_trans order ((List.pairwise_cons.1 ordered).1 _ inRest)
  exact Link.not_samePair_of_before behind (Link.samePair_iff.2 ⟨rfl, rfl⟩)

/-- There is a least number unless there is none at all. -/
theorem exists_isLeast_iff {numbers : Set Nat} : (∃ i, IsLeast numbers i) ↔ numbers.Nonempty := by
  refine ⟨fun ⟨i, least⟩ => ⟨i, least.1⟩, fun ⟨i, here⟩ => ?_⟩
  obtain ⟨j, _, least⟩ := exists_isLeast_le here
  exact ⟨j, least⟩

/-! ### Two ways to the smallest number -/

/-- **Looking first**: a link is put in its place if its pair has no edge or one with a greater
number. -/
theorem insertLink_eq (ordered : Ordered links) : insertLink link links =
    match edgeOf? links link.caller link.callee with
    | none => putLink link links
    | some known => if link.edge < known then putLink link links else links := by
  induction links with
  | nil => rfl
  | cons other rest hyp =>
    rw [insertLink, putLink]
    by_cases same : link.samePair other = true
    · obtain ⟨caller, callee⟩ := Link.samePair_iff.1 same
      have replaced : (⟨other.caller, other.callee, link.edge⟩ : Link) = link := by
        rw [← caller, ← callee]
      rw [edgeOf?_cons_same same, if_pos same, if_pos same]
      dsimp only
      split
      · rename_i smaller
        rw [Nat.min_eq_left smaller.le, replaced]
      · rename_i notSmaller
        rw [Nat.min_eq_right (Nat.le_of_not_lt notSmaller)]
    · rw [if_neg same, if_neg same]
      by_cases order : link.before other = true
      · rw [edgeOf?_of_before ordered order, if_pos order, if_pos order]
      · rw [edgeOf?_cons_other same, if_neg order, if_neg order,
          hyp (List.pairwise_cons.1 ordered).2]
        cases edgeOf? rest link.caller link.callee with
        | none => rfl
        | some known => exact apply_ite (other :: ·) _ _ _

/-- **Putting first**: so it is if an edge that the pair gets is compared with itself. -/
theorem mergeLink_eq (ordered : Ordered links) : Table.mergeLink links link = insertLink link links := by
  rw [insertLink_eq ordered, Table.mergeLink]
  cases edgeOf? links link.caller link.callee with
  | none => exact if_neg (Nat.lt_irrefl _)
  | some known => rfl

theorem foldl_mergeLink (ordered : Ordered links) (more : List Link) :
    more.foldl Table.mergeLink links = more.foldl (fun links link => insertLink link links) links := by
  induction more generalizing links with
  | nil => rfl
  | cons link rest hyp =>
    rw [List.foldl_cons, List.foldl_cons, mergeLink_eq ordered, hyp (ordered_insertLink ordered)]

/-! ### The invariant of a table -/

namespace Table

/-- **A table holds edges of pairs**: its pairs are those for which there are any, with the least
number, and its nodes are their ends, each of them once. -/
structure Holds (t : Table) (edges : Nat → Nat → Set Nat) : Prop where
  pairs : Flow.Holds ⟨t.links⟩ edges
  ends : ∀ v, v ∈ t.nodes ↔ ∃ w, (edges v w).Nonempty ∨ (edges w v).Nonempty
  increasing : t.nodes.Pairwise (· < ·)

/-- **A table is known by what it holds.** -/
theorem Holds.unique (left : t.Holds edges) (right : t'.Holds edges) : t = t' := by
  have links : t.links = t'.links := congrArg Flow.links (left.pairs.unique right.pairs)
  have nodes : t.nodes = t'.nodes :=
    List.Pairwise.eq_of_mem_iff left.increasing right.increasing fun v =>
      (left.ends v).trans (right.ends v).symm
  obtain ⟨ns, ls⟩ := t
  obtain ⟨ns', ls'⟩ := t'
  exact congrArg₂ Table.mk nodes links

/-- The same edges, described in another way. -/
theorem Holds.congr (holds : t.Holds edges) (same : ∀ u v i, i ∈ edges u v ↔ i ∈ edges' u v) :
    t.Holds edges' := by
  have equal : edges = edges' := funext fun u => funext fun v => Set.ext (same u v)
  exact equal ▸ holds

/-- What a flow holds, its table holds. -/
theorem holds_ofFlow (holds : f.Holds edges) : (ofFlow f).Holds edges where
  pairs := holds
  ends v := by
    show v ∈ f.nodes ↔ _
    simp only [← exists_isLeast_iff, ← holds.mem]
    rw [mem_nodes]
    constructor
    · rintro ⟨⟨a, b, i⟩, here, rfl | rfl⟩
      · exact ⟨b, Or.inl ⟨i, here⟩⟩
      · exact ⟨a, Or.inr ⟨i, here⟩⟩
    · rintro ⟨w, ⟨i, here⟩ | ⟨i, here⟩⟩
      · exact ⟨_, here, Or.inl rfl⟩
      · exact ⟨_, here, Or.inr rfl⟩
  increasing := pairwise_nodes f

/-- The pair of a link is found under its number, or it is not found and there is no edge of it. -/
theorem Holds.find?_iff (holds : t.Holds edges) : t.find? u v = some i ↔ IsLeast (edges u v) i :=
  holds.pairs.edgeOf?_iff

theorem Holds.find?_eq_none_iff (holds : t.Holds edges) : t.find? u v = none ↔ edges u v = ∅ :=
  holds.pairs.edgeOf?_eq_none_iff

/-- An edge is new if its pair is not found. -/
theorem insert_snd (t : Table) (e : Edge × Nat) :
    (t.insert e).2 = true ↔ t.find? e.1.caller e.1.callee = none := by
  unfold insert
  dsimp only
  cases t.find? e.1.caller e.1.callee with
  | none => exact iff_of_true rfl rfl
  | some known =>
    dsimp only
    refine iff_of_false ?_ (Option.some_ne_none known)
    split <;> exact Bool.false_ne_true

/-- An edge is new for a flow that is kept if it is new for the flow. -/
theorem insert_snd_ofFlow (f : Flow) (e : Edge × Nat) : ((ofFlow f).insert e).2 = f.isNew e.1 := by
  rw [Bool.eq_iff_iff, insert_snd, isNew, Bool.not_eq_true', ← Bool.not_eq_true, containsEdge_iff,
    not_exists]
  exact Flow.edgeOf?_eq_none_iff

/-- What adding an edge makes of the two tables. -/
theorem insert_fst (holds : t.Holds edges) (e : Edge × Nat) : (t.insert e).1 =
    ⟨insertNumber e.1.callee (insertNumber e.1.caller t.nodes),
      insertLink ⟨e.1.caller, e.1.callee, e.2⟩ t.links⟩ := by
  rw [insertLink_eq holds.pairs.ordered]
  unfold insert find?
  dsimp only
  cases edgeOf? t.links e.1.caller e.1.callee with
  | none => rfl
  | some known =>
    dsimp only
    split <;> rfl

/-- **One edge more.** -/
theorem Holds.insert (holds : t.Holds edges) (e : Edge × Nat) : (t.insert e).1.Holds
    fun u v => {i | (⟨e.1.caller, e.1.callee, e.2⟩ : Link) = ⟨u, v, i⟩ ∨ i ∈ edges u v} := by
  rw [insert_fst holds]
  refine ⟨holds_insertLink holds.pairs _, fun v => ?_,
    pairwise_insertNumber (pairwise_insertNumber holds.increasing)⟩
  have some : ∀ u w, {i | (⟨e.1.caller, e.1.callee, e.2⟩ : Link) = ⟨u, w, i⟩ ∨
      i ∈ edges u w}.Nonempty ↔ e.1.caller = u ∧ e.1.callee = w ∨ (edges u w).Nonempty := by
    intro u w
    simp only [Set.Nonempty, Set.mem_ofPred_eq, Link.mk.injEq, exists_or, exists_and_left,
      exists_eq', and_true]
  simp only [mem_insertNumber, holds.ends, some, exists_or, exists_and_left, exists_and_right,
    exists_eq', and_true, true_and, @eq_comm _ v]
  tauto

/-- The numbers of a list are put among others. -/
theorem mem_foldl_insertNumber {more ns : List Nat} :
    v ∈ more.foldl (fun ns v => insertNumber v ns) ns ↔ v ∈ ns ∨ v ∈ more := by
  induction more generalizing ns with
  | nil => simp
  | cons w rest hyp => rw [List.foldl_cons, hyp, mem_insertNumber, List.mem_cons, or_assoc, or_left_comm]

theorem pairwise_foldl_insertNumber {more ns : List Nat} (increasing : ns.Pairwise (· < ·)) :
    (more.foldl (fun ns v => insertNumber v ns) ns).Pairwise (· < ·) := by
  induction more generalizing ns with
  | nil => exact increasing
  | cons w rest hyp => exact hyp (pairwise_insertNumber increasing)

/-- **Either of two tables.** -/
theorem Holds.union (left : t.Holds edges) (right : t'.Holds edges') :
    (t.union t').Holds fun u v => edges u v ∪ edges' u v where
  pairs := by
    have links : (t.union t').links = (Flow.union ⟨t.links⟩ ⟨t'.links⟩).links :=
      foldl_mergeLink left.pairs.ordered t'.links
    rw [links]
    exact holds_union left.pairs right.pairs
  ends v := by
    show v ∈ t'.nodes.foldl _ t.nodes ↔ _
    rw [mem_foldl_insertNumber, left.ends, right.ends, ← exists_or]
    simp only [Set.union_nonempty]
    exact exists_congr fun w => or_or_or_comm
  increasing := pairwise_foldl_insertNumber left.increasing

/-- A flow that is kept is added to as the flow is. -/
theorem insert_ofFlow (holds : f.Holds edges) (e : Edge × Nat) :
    ((ofFlow f).insert e).1 = ofFlow (f.insert e) :=
  ((holds_ofFlow holds).insert e).unique (holds_ofFlow (holds_insertLink holds _))

/-- Flows that are kept are united as the flows are. -/
theorem union_ofFlow {f' : Flow} (left : f.Holds edges) (right : f'.Holds edges') :
    (ofFlow f).union (ofFlow f') = ofFlow (f.union f') :=
  ((holds_ofFlow left).union (holds_ofFlow right)).unique (holds_ofFlow (holds_union left right))

end Table

/-! ### Flows that can be built -/

namespace Recipe

variable {g : Graph}

/-- The edges that are added on the way, by number. -/
def inserted : Recipe g → Set (Fin g.edges.size)
  | empty => ∅
  | insert r i => Insert.insert i r.inserted
  | union r s => r.inserted ∪ s.inserted

/-- Those of them that join a pair. -/
def numbers (r : Recipe g) (u v : Nat) : Set Nat :=
  {i | ∃ inRange : i < g.edges.size, ⟨i, inRange⟩ ∈ r.inserted ∧
    g.edges[i].caller = u ∧ g.edges[i].callee = v}

/-- **What is built holds the edges that are added on the way.** -/
theorem holds_flow (r : Recipe g) : r.flow.Holds r.numbers := by
  induction r with
  | empty => exact holds_empty.congr fun u v i => by simp [numbers, inserted]
  | insert r i hyp =>
    refine (holds_insertLink hyp ⟨g.edges[i].caller, g.edges[i].callee, i⟩).congr fun u v j => ?_
    simp only [numbers, inserted, Set.mem_ofPred_eq, Set.mem_insert_iff, Link.mk.injEq, or_and_right,
      exists_or]
    refine or_congr_left ⟨?_, ?_⟩
    · rintro ⟨rfl, rfl, rfl⟩
      exact ⟨i.isLt, rfl, rfl, rfl⟩
    · rintro ⟨_, rfl, caller, callee⟩
      exact ⟨caller, callee, rfl⟩
  | union r s hypR hypS =>
    refine (holds_union hypR hypS).congr fun u v j => ?_
    simp only [numbers, inserted, Set.mem_union, Set.mem_ofPred_eq, or_and_right, exists_or]

/-- A flow that is kept is the flow, at every step. -/
theorem table_eq_ofFlow (r : Recipe g) : r.table = .ofFlow r.flow := by
  induction r with
  | empty => rfl
  | insert r i hyp =>
    show (r.table.insert (numbered g i)).1 = _
    rw [hyp]
    exact Table.insert_ofFlow r.holds_flow _
  | union r s hypR hypS =>
    show r.table.union s.table = _
    rw [hypR, hypS]
    exact Table.union_ofFlow r.holds_flow s.holds_flow

theorem holds (r : Recipe g) : r.table.Holds r.numbers :=
  r.table_eq_ofFlow ▸ Table.holds_ofFlow r.holds_flow

/-- The nodes are the ends of the pairs that are found. -/
theorem mem_nodes_iff (r : Recipe g) {v : Nat} : v ∈ r.table.nodes ↔
    ∃ w i, r.table.find? v w = some i ∨ r.table.find? w v = some i := by
  simp only [r.holds.ends, r.holds.find?_iff, exists_or, exists_isLeast_iff]

/-- **What is built depends on the edges alone** that are added on the way. -/
theorem table_eq_of_inserted_eq {r s : Recipe g} (same : r.inserted = s.inserted) :
    r.table = s.table := by
  refine r.holds.unique (s.holds.congr fun u v i => ?_)
  rw [numbers, numbers, same]

/-- **A flow is known by the set of edges that have been added to it**, however they were added. Each
pair has the smallest number of an edge added for it, which joins the pair in the graph; the nodes are
the ends of the pairs, each of them once; and an edge is new exactly if its pair is not there yet. What
is kept is the flow itself. So uniting flows is a join, and neither the order of additions and unions
matters nor how often an edge is added. -/
theorem table_canonical (r : Recipe g) :
    (∀ u v i, r.table.find? u v = some i ↔ IsLeast (r.numbers u v) i) ∧
    (∀ v, v ∈ r.table.nodes ↔
      ∃ w i, r.table.find? v w = some i ∨ r.table.find? w v = some i) ∧
    (r.table.nodes.Pairwise (· < ·) ∧ Ordered r.table.links) ∧
    (∀ i : Fin g.edges.size, (r.table.insert (numbered g i)).2 = true ↔
      r.table.find? (numbered g i).1.caller (numbered g i).1.callee = none) ∧
    (r.table = .ofFlow r.flow ∧
      ∀ i : Fin g.edges.size, (r.table.insert (numbered g i)).2 = r.flow.isNew (numbered g i).1) ∧
    (∀ s : Recipe g, r.inserted = s.inserted → r.table = s.table) ∧
    (∀ s : Recipe g, r.table.union s.table = s.table.union r.table) ∧
    (∀ s t : Recipe g, (r.table.union s.table).union t.table =
      r.table.union (s.table.union t.table)) ∧
    r.table.union r.table = r.table ∧
    r.table.union {} = r.table ∧ Table.union {} r.table = r.table := by
  refine ⟨fun _ _ _ => r.holds.find?_iff, fun _ => r.mem_nodes_iff,
    ⟨r.holds.increasing, r.holds.pairs.ordered⟩, fun i => Table.insert_snd _ _,
    ⟨r.table_eq_ofFlow, fun i => ?_⟩, fun s same => table_eq_of_inserted_eq same,
    fun s => ?_, fun s t => ?_, ?_, ?_, ?_⟩
  · rw [r.table_eq_ofFlow, Table.insert_snd_ofFlow]
  -- Both sides of a law are built in two ways from the same edges.
  · exact table_eq_of_inserted_eq (r := r.union s) (s := s.union r) (Set.union_comm _ _)
  · exact table_eq_of_inserted_eq (r := (r.union s).union t) (s := r.union (s.union t))
      (Set.union_assoc _ _ _)
  · exact table_eq_of_inserted_eq (r := r.union r) (Set.union_self _)
  · exact table_eq_of_inserted_eq (r := r.union .empty) (Set.union_empty _)
  · exact table_eq_of_inserted_eq (r := Recipe.empty.union r) (Set.empty_union _)

/-- Two functions that call each other, one of them from two places. -/
def rally : Graph where
  nodes := #[{ id := "app::ping", name := "ping" }, { id := "app::pong", name := "pong" }]
  edges := #[⟨0, 1, {}⟩, ⟨1, 0, {}⟩, ⟨0, 1, {}⟩]

/-- All its calls, one after another. -/
def inTurn : Recipe rally :=
  .insert (.insert (.insert .empty ⟨0, by decide⟩) ⟨1, by decide⟩) ⟨2, by decide⟩

/-- The same calls in two flows, the later one of the two from one place to the other before the
earlier one. -/
def inParts : Recipe rally :=
  .union (.insert .empty ⟨2, by decide⟩) (.insert (.insert .empty ⟨1, by decide⟩) ⟨0, by decide⟩)

theorem table_canonical_rally : inParts.inserted = inTurn.inserted ∧ inParts.table = inTurn.table ∧
    inTurn.table = ⟨[0, 1], [⟨0, 1, 0⟩, ⟨1, 0, 1⟩]⟩ := by
  have same : inParts.inserted = inTurn.inserted := by
    ext i
    simp only [inParts, inTurn, inserted, Set.mem_union, Set.mem_insert_iff, Set.mem_empty_iff_false]
    tauto
  obtain ⟨_, _, _, _, _, determined, _⟩ := table_canonical inParts
  exact ⟨same, determined inTurn same, by decide +kernel⟩

end Recipe

end Flow

end CallGraph
