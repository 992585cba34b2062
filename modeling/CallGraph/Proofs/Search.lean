import CallGraph.Hops
import CallGraph.Proofs.Distance
import Mathlib.Data.Fintype.EquivFin

/-!
**A search finds the distances up to its limit.**

The theory of `search`. One invariant, `Searched`, holds of every state of a search: distances belong
to paths, the queue is ordered and spans at most two distances, and whatever has been gone on from
has no callee without a distance. At the end nothing waits, and the invariant says that the distances
are those of shortest paths.

* `searched_advance` — a step keeps the invariant;
* `get_search_iff` — the distances of a search are the hops from its roots, up to the limit;
* `mem_expanded_iff` — it goes on from the nodes that lie closer than the limit, from each once
  (`nodup_expanded`);
* `lt_of_mem_queue` — hop counts stay smaller than the number of nodes;
* `search_eq_after` — a search among `n` nodes ends after at most `n` steps.
-/

namespace CallGraph

/-- An arc between two of `n` nodes. -/
def Hop (n : Nat) (next : Nat → List Nat) (u v : Nat) : Prop :=
  u < n ∧ v < n ∧ v ∈ next u

/-- A distance below the limit, if there is one. -/
def Below (limit : Option Nat) (d : Nat) : Prop :=
  ∀ l, limit = some l → d < l

theorem all_lt_iff {limit : Option Nat} {d : Nat} :
    limit.all (d < ·) = true ↔ Below limit d := by
  simp [Below, Option.all_eq_true]

namespace Distances

theorem lt_size_of_get {d : Distances} {v k : Nat} (here : d.get v = some k) : v < d.size := by
  unfold get at here
  by_cases inRange : v < d.size
  · exact inRange
  · rw [Array.getElem?_eq_none (Nat.le_of_not_lt inRange)] at here
    cases here

/-- A node that has not been come to. -/
theorem getElem?_eq_some_none_iff {d : Distances} {v : Nat} :
    d[v]? = some none ↔ v < d.size ∧ d.get v = none := by
  unfold get
  by_cases inRange : v < d.size
  · rw [Array.getElem?_eq_getElem inRange]
    simp [inRange]
  · rw [Array.getElem?_eq_none (Nat.le_of_not_lt inRange)]
    simp [inRange]

theorem get_set {d : Distances} {v k : Nat} (inRange : v < d.size) (w : Nat) :
    get (d.setIfInBounds v (some k)) w = if w = v then some k else d.get w := by
  unfold get
  by_cases same : w = v
  · rw [if_pos same, same, Array.getElem?_setIfInBounds_self_of_lt inRange]
    rfl
  · rw [if_neg same, Array.getElem?_setIfInBounds_ne fun equal => same equal.symm]

end Distances

namespace Search

/-! ### Coming to nodes -/

/-- What a search is after it has come to some nodes with a distance: `fresh` are those among them
that it had not come to. -/
structure Came (k : Nat) (vs : List Nat) (s s' : Search) (fresh : List Nat) : Prop where
  nodup : fresh.Nodup
  mem : ∀ v, v ∈ fresh ↔ v ∈ vs ∧ v < s.distances.size ∧ s.distances.get v = none
  queue : s'.queue = s.queue ++ fresh.map fun v => (v, k)
  expanded : s'.expanded = s.expanded
  size : s'.distances.size = s.distances.size
  get : ∀ v, s'.distances.get v = if v ∈ fresh then some k else s.distances.get v

/-- A node that has not been come to is noted and put into the queue. -/
theorem came_see_new {k v : Nat} {s : Search} (inRange : v < s.distances.size)
    (new : s.distances.get v = none) : Came k [v] s (s.see k v) [v] := by
  have unseen := Distances.getElem?_eq_some_none_iff.2 ⟨inRange, new⟩
  rw [see, if_pos unseen]
  refine ⟨List.nodup_singleton v, fun w => ?_, rfl, rfl, Array.size_setIfInBounds, fun w => ?_⟩
  · constructor
    · intro here
      rw [List.mem_singleton.1 here]
      exact ⟨List.mem_singleton_self v, inRange, new⟩
    · exact fun here => here.1
  · rw [Distances.get_set inRange]
    simp only [List.mem_singleton]

/-- A node that has been come to is passed over, and so is one that there is not. -/
theorem came_see_old {k v : Nat} {s : Search}
    (old : ¬ (v < s.distances.size ∧ s.distances.get v = none)) : Came k [v] s (s.see k v) [] := by
  have seen := mt Distances.getElem?_eq_some_none_iff.1 old
  rw [see, if_neg seen]
  refine ⟨List.nodup_nil, fun w => ⟨fun here => absurd here List.not_mem_nil, ?_⟩,
    (List.append_nil _).symm, rfl, rfl, fun w => ?_⟩
  · rintro ⟨here, unseen⟩
    exact absurd (List.mem_singleton.1 here ▸ unseen) old
  · rw [if_neg List.not_mem_nil]

/-- Coming to some nodes and then to others. -/
theorem Came.append {k : Nat} {vs ws fresh more : List Nat} {s s' s'' : Search}
    (first : Came k vs s s' fresh) (second : Came k ws s' s'' more) :
    Came k (vs ++ ws) s s'' (fresh ++ more) := by
  have apart : ∀ v ∈ more, v ∉ fresh := by
    intro v inMore inFresh
    have unseen := ((second.mem v).1 inMore).2.2
    rw [first.get, if_pos inFresh] at unseen
    cases unseen
  refine ⟨?_, fun v => ?_, ?_, ?_, ?_, fun v => ?_⟩
  · rw [List.nodup_append]
    exact ⟨first.nodup, second.nodup, fun v inFresh w inMore same => apart w inMore (same ▸ inFresh)⟩
  · rw [List.mem_append, List.mem_append, second.mem, first.size, first.get]
    by_cases inFresh : v ∈ fresh
    · obtain ⟨inVs, unseen⟩ := (first.mem v).1 inFresh
      simp [inFresh, inVs, unseen]
    · rw [if_neg inFresh]
      constructor
      · rintro (here | ⟨inWs, unseen⟩)
        · exact absurd here inFresh
        · exact ⟨Or.inr inWs, unseen⟩
      · rintro ⟨inVs | inWs, unseen⟩
        · exact Or.inl ((first.mem v).2 ⟨inVs, unseen⟩)
        · exact Or.inr ⟨inWs, unseen⟩
  · rw [second.queue, first.queue, List.append_assoc, List.map_append]
  · rw [second.expanded, first.expanded]
  · rw [second.size, first.size]
  · rw [second.get, first.get]
    by_cases inMore : v ∈ more
    · rw [if_pos inMore, if_pos (List.mem_append_right _ inMore)]
    · rw [if_neg inMore]
      by_cases inFresh : v ∈ fresh
      · rw [if_pos inFresh, if_pos (List.mem_append_left _ inFresh)]
      · rw [if_neg inFresh, if_neg (by simp [inFresh, inMore])]

theorem came_foldl_see (k : Nat) (vs : List Nat) (s : Search) :
    ∃ fresh, Came k vs s (vs.foldl (see k) s) fresh := by
  induction vs generalizing s with
  | nil => exact ⟨[], List.nodup_nil, by simp, by simp, rfl, rfl, by simp⟩
  | cons v rest hyp =>
    obtain ⟨fresh, later⟩ := hyp (s.see k v)
    by_cases unseen : v < s.distances.size ∧ s.distances.get v = none
    · exact ⟨[v] ++ fresh, (came_see_new unseen.1 unseen.2).append later⟩
    · exact ⟨[] ++ fresh, (came_see_old unseen).append later⟩

namespace Came

variable {k : Nat} {vs fresh : List Nat} {s s' : Search} {w e : Nat}

/-- A distance stays. -/
theorem get_old (came : Came k vs s s' fresh) (known : s.distances.get w = some e) :
    s'.distances.get w = some e := by
  have notFresh : w ∉ fresh := fun inFresh => by
    have unseen := ((came.mem w).1 inFresh).2.2
    rw [known] at unseen
    cases unseen
  rw [came.get, if_neg notFresh]
  exact known

theorem get_new (came : Came k vs s s' fresh) (inFresh : w ∈ fresh) :
    s'.distances.get w = some k := by
  rw [came.get, if_pos inFresh]

/-- A distance is an old one or that of the new nodes. -/
theorem get_cases (came : Came k vs s s' fresh) (found : s'.distances.get w = some e) :
    s.distances.get w = some e ∨ (w ∈ fresh ∧ e = k) := by
  rw [came.get] at found
  split at found
  · rename_i inFresh
    exact Or.inr ⟨inFresh, (Option.some.inj found).symm⟩
  · exact Or.inl found

end Came

/-! ### The invariant -/

variable {n : Nat} {next : Nat → List Nat} {limit : Option Nat} {roots : List Nat}

/-- **What holds of every state of a search.** -/
structure Searched (n : Nat) (next : Nat → List Nat) (limit : Option Nat) (roots : List Nat)
    (s : Search) : Prop where
  size : s.distances.size = n
  /-- Every root has distance 0, and nothing else has. -/
  zero : ∀ v < n, s.distances.get v = some 0 ↔ v ∈ roots
  /-- Every other distance is one more than that of a node from which an arc leads there. -/
  before : ∀ v d, s.distances.get v = some (d + 1) →
    ∃ u, s.distances.get u = some d ∧ Hop n next u v ∧ Below limit d
  queued : ∀ v d, (v, d) ∈ s.queue → s.distances.get v = some d
  /-- What does not wait any more has been gone on from, if it lies below the limit. -/
  looked : ∀ v d, s.distances.get v = some d → (v, d) ∈ s.queue ∨ (Below limit d → v ∈ s.expanded)
  below : ∀ v ∈ s.expanded, ∃ d, s.distances.get v = some d ∧ Below limit d
  /-- What has been gone on from leads only to nodes that are at most one hop farther. -/
  closed : ∀ u ∈ s.expanded, ∀ d, s.distances.get u = some d → ∀ v, Hop n next u v →
    ∃ e ≤ d + 1, s.distances.get v = some e
  ordered : s.queue.Pairwise fun a b => a.2 ≤ b.2
  /-- No distance is more than one larger than that of the node to be looked at next. -/
  span : ∀ v d rest, s.queue = (v, d) :: rest → ∀ w e, s.distances.get w = some e → e ≤ d + 1
  distinct : (s.expanded ++ s.queue.map (·.1)).Nodup

/-- The search that has come to its roots satisfies the invariant. -/
theorem searched_start (n : Nat) (next : Nat → List Nat) (limit : Option Nat) (roots : List Nat) :
    Searched n next limit roots (start n roots) := by
  obtain ⟨fresh, came⟩ := came_foldl_see 0 roots ⟨Array.replicate n none, [], []⟩
  have blank : ∀ v, Distances.get (Array.replicate n none) v = none := by
    intro v
    unfold Distances.get
    rw [Array.getElem?_replicate]
    split <;> rfl
  have size : (Array.replicate n (none : Option Nat)).size = n := Array.size_replicate
  have get : ∀ v d, (start n roots).distances.get v = some d ↔ v ∈ fresh ∧ d = 0 := by
    intro v d
    rw [start, came.get, blank]
    split
    · rename_i inFresh
      simp [inFresh, eq_comm]
    · rename_i outside
      simp [outside]
  have mem : ∀ v, v ∈ fresh ↔ v ∈ roots ∧ v < n := by
    intro v
    rw [came.mem, size, blank]
    simp
  have queue : (start n roots).queue = fresh.map fun v => (v, 0) := by
    rw [start, came.queue, List.nil_append]
  have expanded : (start n roots).expanded = [] := came.expanded
  refine ⟨came.size.trans size, fun v inRange => ?_, fun v d here => ?_, fun v d here => ?_,
    fun v d here => Or.inl ?_, fun v here => ?_, fun u here => ?_, ?_,
    fun v d rest same w e here => ?_, ?_⟩
  · rw [get, mem]
    simp [inRange]
  · exact absurd ((get v _).1 here).2 (Nat.succ_ne_zero d)
  · rw [queue, List.mem_map] at here
    obtain ⟨w, inFresh, same⟩ := here
    cases same
    exact (get _ 0).2 ⟨inFresh, rfl⟩
  · obtain ⟨inFresh, zero⟩ := (get v d).1 here
    rw [queue, zero]
    exact List.mem_map_of_mem inFresh
  · rw [expanded] at here
    cases here
  · rw [expanded] at here
    cases here
  · rw [queue, List.pairwise_map]
    exact List.pairwise_of_forall fun _ _ => Nat.le_refl 0
  · rw [((get w e).1 here).2]
    exact Nat.zero_le _
  · rw [expanded, queue, List.nil_append, List.map_map]
    simpa [Function.comp_def] using came.nodup

/-- A step that does not go on from its node keeps the invariant. -/
theorem searched_skip {s : Search} {v d : Nat} {rest : List (Nat × Nat)}
    (known : Searched n next limit roots s) (waiting : s.queue = (v, d) :: rest)
    (far : ¬ Below limit d) : Searched n next limit roots { s with queue := rest } where
  size := known.size
  zero := known.zero
  before := known.before
  queued w e here := known.queued w e (by rw [waiting]; exact List.mem_cons_of_mem _ here)
  looked w e here := by
    rcases known.looked w e here with inQueue | on
    · rw [waiting, List.mem_cons] at inQueue
      rcases inQueue with same | inRest
      · cases same
        exact Or.inr fun near => absurd near far
      · exact Or.inl inRest
    · exact Or.inr on
  below := known.below
  closed := known.closed
  ordered := (List.pairwise_cons.1 (waiting ▸ known.ordered)).2
  span w e later same x f here := by
    have near := known.span v d rest waiting x f here
    have same : rest = (w, e) :: later := same
    have first : (w, e) ∈ rest := by
      rw [same]
      exact List.mem_cons_self
    have least := (List.pairwise_cons.1 (waiting ▸ known.ordered)).1 (w, e) first
    exact near.trans (Nat.add_le_add_right least 1)
  distinct := by
    have all := known.distinct
    rw [waiting, List.map_cons] at all
    exact all.sublist (List.Sublist.append_left (List.sublist_cons_self _ _) _)

/-! ### A step that goes on from its node -/

section

variable {s s' : Search} {v d : Nat} {rest : List (Nat × Nat)} {fresh : List Nat}

/-- The state from which a step comes to the nodes behind its own. -/
abbrev left (s : Search) (v : Nat) (rest : List (Nat × Nat)) : Search :=
  { s with queue := rest, expanded := v :: s.expanded }

/-- What waits behind the node has a distance. -/
theorem Searched.get_rest (known : Searched n next limit roots s) (waiting : s.queue = (v, d) :: rest)
    {w e : Nat} (waits : (w, e) ∈ rest) : s.distances.get w = some e :=
  known.queued w e (waiting ▸ List.mem_cons_of_mem _ waits)

/-- The node itself has one. -/
theorem Searched.get_head (known : Searched n next limit roots s)
    (waiting : s.queue = (v, d) :: rest) : s.distances.get v = some d :=
  known.queued v d (waiting ▸ List.mem_cons_self)

/-- Every other distance is still one more than that of a node with an arc. -/
theorem before_expand (known : Searched n next limit roots s) (waiting : s.queue = (v, d) :: rest)
    (near : Below limit d) (came : Came (d + 1) (next v) (s.left v rest) s' fresh) {w e : Nat}
    (found : s'.distances.get w = some (e + 1)) :
    ∃ u, s'.distances.get u = some e ∧ Hop n next u w ∧ Below limit e := by
  rcases came.get_cases found with found | ⟨inFresh, same⟩
  · obtain ⟨u, behind, arc, below⟩ := known.before w e found
    exact ⟨u, came.get_old behind, arc, below⟩
  · cases same
    have here := known.get_head waiting
    obtain ⟨listed, inRange, _⟩ := (came.mem w).1 inFresh
    have arc : Hop n next v w :=
      ⟨known.size ▸ Distances.lt_size_of_get here, known.size ▸ inRange, listed⟩
    exact ⟨v, came.get_old here, arc, near⟩

/-- What does not wait any more has still been gone on from. -/
theorem looked_expand (known : Searched n next limit roots s) (waiting : s.queue = (v, d) :: rest)
    (came : Came (d + 1) (next v) (s.left v rest) s' fresh) {w e : Nat}
    (found : s'.distances.get w = some e) :
    (w, e) ∈ s'.queue ∨ (Below limit e → w ∈ s'.expanded) := by
  rw [came.queue, came.expanded, List.mem_append, List.mem_map, List.mem_cons]
  rcases came.get_cases found with found | ⟨inFresh, same⟩
  · rcases known.looked w e found with waits | on
    · rw [waiting, List.mem_cons] at waits
      rcases waits with same | waits
      · cases same
        exact Or.inr fun _ => Or.inl rfl
      · exact Or.inl (Or.inl waits)
    · exact Or.inr fun below => Or.inr (on below)
  · cases same
    exact Or.inl (Or.inr ⟨w, inFresh, rfl⟩)

/-- What has been gone on from still leads only to nodes that are at most one hop farther. -/
theorem closed_expand (known : Searched n next limit roots s) (waiting : s.queue = (v, d) :: rest)
    (came : Came (d + 1) (next v) (s.left v rest) s' fresh) {u e w : Nat} (on : u ∈ s'.expanded)
    (found : s'.distances.get u = some e) (arc : Hop n next u w) :
    ∃ f ≤ e + 1, s'.distances.get w = some f := by
  rw [came.expanded, List.mem_cons] at on
  rcases on with same | on
  · cases same
    have here := known.get_head waiting
    have same : e = d := Option.some.inj (found.symm.trans (came.get_old here))
    rw [same]
    cases seen : s.distances.get w with
    | some f => exact ⟨f, known.span v d rest waiting w f seen, came.get_old seen⟩
    | none =>
      have inFresh : w ∈ fresh := (came.mem w).2 ⟨arc.2.2, known.size.symm ▸ arc.2.1, seen⟩
      exact ⟨d + 1, Nat.le_refl _, came.get_new inFresh⟩
  · obtain ⟨f, behind, _⟩ := known.below u on
    have same : e = f := Option.some.inj (found.symm.trans (came.get_old behind))
    obtain ⟨k, close, seen⟩ := known.closed u on f behind w arc
    exact ⟨k, same ▸ close, came.get_old seen⟩

/-- The queue is still ordered. -/
theorem ordered_expand (known : Searched n next limit roots s) (waiting : s.queue = (v, d) :: rest)
    (came : Came (d + 1) (next v) (s.left v rest) s' fresh) :
    s'.queue.Pairwise fun a b => a.2 ≤ b.2 := by
  rw [came.queue, List.pairwise_append, List.pairwise_map]
  refine ⟨(List.pairwise_cons.1 (waiting ▸ known.ordered)).2,
    List.pairwise_of_forall fun _ _ => Nat.le_refl _, fun a waits b new => ?_⟩
  obtain ⟨w, _, rfl⟩ := List.mem_map.1 new
  exact known.span v d rest waiting a.1 a.2 (known.get_rest waiting waits)

/-- It still spans at most two distances. -/
theorem span_expand (known : Searched n next limit roots s) (waiting : s.queue = (v, d) :: rest)
    (came : Came (d + 1) (next v) (s.left v rest) s' fresh) {w e x f : Nat}
    {later : List (Nat × Nat)} (same : s'.queue = (w, e) :: later)
    (found : s'.distances.get x = some f) : f ≤ e + 1 := by
  have close : f ≤ d + 1 := by
    rcases came.get_cases found with found | ⟨_, same⟩
    · exact known.span v d rest waiting x f found
    · exact Nat.le_of_eq same
  have first : (w, e) ∈ s'.queue := same ▸ List.mem_cons_self
  rw [came.queue, List.mem_append, List.mem_map] at first
  rcases first with waits | ⟨y, _, same⟩
  · have least := (List.pairwise_cons.1 (waiting ▸ known.ordered)).1 (w, e) waits
    exact close.trans (Nat.add_le_add_right least 1)
  · cases same
    exact close.trans (Nat.le_succ _)

/-- Nothing waits twice, or after it has been gone on from. -/
theorem distinct_expand (known : Searched n next limit roots s) (waiting : s.queue = (v, d) :: rest)
    (came : Came (d + 1) (next v) (s.left v rest) s' fresh) :
    (s'.expanded ++ s'.queue.map (·.1)).Nodup := by
  have seen : ∀ w ∈ v :: s.expanded ++ rest.map (·.1), ∃ e, s.distances.get w = some e := by
    intro w old
    rw [List.mem_append, List.mem_cons, List.mem_map] at old
    rcases old with (same | on) | ⟨⟨x, e⟩, waits, same⟩
    · exact ⟨d, same ▸ known.get_head waiting⟩
    · obtain ⟨e, found, _⟩ := known.below w on
      exact ⟨e, found⟩
    · cases same
      exact ⟨e, known.get_rest waiting waits⟩
  have earlier : (v :: s.expanded ++ rest.map (·.1)).Nodup := by
    have distinct := known.distinct
    rw [waiting, List.map_cons] at distinct
    exact List.perm_middle.nodup_iff.1 distinct
  have mapped : (fresh.map fun w => (w, d + 1)).map (·.1) = fresh := by
    rw [List.map_map]
    exact List.map_id fresh
  rw [came.expanded, came.queue, List.map_append, mapped, ← List.append_assoc, List.nodup_append]
  refine ⟨earlier, came.nodup, fun w old x new same => ?_⟩
  obtain ⟨e, found⟩ := seen w old
  have unseen := ((came.mem x).1 new).2.2
  rw [← same, found] at unseen
  cases unseen

theorem searched_expand (known : Searched n next limit roots s) (waiting : s.queue = (v, d) :: rest)
    (near : Below limit d) (came : Came (d + 1) (next v) (s.left v rest) s' fresh) :
    Searched n next limit roots s' := by
  refine ⟨came.size.trans known.size, fun w lt => ?_,
    fun w e => before_expand known waiting near came, fun w e waits => ?_,
    fun w e => looked_expand known waiting came, fun w on => ?_,
    fun u on e found w => closed_expand known waiting came on found,
    ordered_expand known waiting came,
    fun w e later same x f => span_expand known waiting came same,
    distinct_expand known waiting came⟩
  · constructor
    · intro found
      rcases came.get_cases found with found | ⟨_, zero⟩
      · exact (known.zero w lt).1 found
      · exact absurd zero.symm (Nat.succ_ne_zero d)
    · exact fun root => came.get_old ((known.zero w lt).2 root)
  · rw [came.queue, List.mem_append, List.mem_map] at waits
    rcases waits with waits | ⟨x, inFresh, same⟩
    · exact came.get_old (known.get_rest waiting waits)
    · cases same
      exact came.get_new inFresh
  · rw [came.expanded, List.mem_cons] at on
    rcases on with same | on
    · exact ⟨d, same ▸ came.get_old (known.get_head waiting), near⟩
    · obtain ⟨e, found, below⟩ := known.below w on
      exact ⟨e, came.get_old found, below⟩

end

/-- **A step keeps the invariant.** -/
theorem searched_advance {s : Search} (known : Searched n next limit roots s) :
    Searched n next limit roots (s.advance next limit) := by
  unfold advance
  split
  · exact known
  · rename_i v d rest waiting
    split
    · rename_i near
      obtain ⟨fresh, came⟩ := came_foldl_see (d + 1) (next v) (s.left v rest)
      exact searched_expand known waiting (all_lt_iff.1 near) came
    · rename_i far
      exact searched_skip known waiting (mt all_lt_iff.2 far)

/-- Every shorter distance occurs too. -/
theorem Searched.exists_get_of_le {s : Search} (known : Searched n next limit roots s)
    {v d e : Nat} (shorter : e ≤ d) (found : s.distances.get v = some d) :
    ∃ u, s.distances.get u = some e := by
  induction d generalizing v with
  | zero => exact ⟨v, Nat.le_zero.1 shorter ▸ found⟩
  | succ d hyp =>
    rcases Nat.le_succ_iff.1 shorter with below | same
    · obtain ⟨u, behind, _⟩ := known.before v d found
      exact hyp below behind
    · exact ⟨v, same ▸ found⟩

/-- No distance is longer than the limit: nothing is gone on from there. -/
theorem Searched.le_limit {s : Search} (known : Searched n next limit roots s) {v d : Nat}
    (found : s.distances.get v = some d) : ∀ l, limit = some l → d ≤ l := by
  intro l same
  cases d with
  | zero => exact Nat.zero_le l
  | succ d =>
    obtain ⟨_, _, _, below⟩ := known.before v d found
    exact below l same

/-- **A distance is smaller than the number of nodes**: each distance up to it belongs to a node of
its own. -/
theorem Searched.lt_of_get {s : Search} (known : Searched n next limit roots s) {v d : Nat}
    (found : s.distances.get v = some d) : d < n := by
  choose node there using
    fun e : Fin (d + 1) => known.exists_get_of_le (Nat.le_of_lt_succ e.2) found
  have inRange : ∀ e, node e < n := fun e => known.size ▸ Distances.lt_size_of_get (there e)
  have injective : Function.Injective fun e => (⟨node e, inRange e⟩ : Fin n) := by
    intro e f same
    have same : node e = node f := congrArg Fin.val same
    have equal := (there e).symm.trans (same ▸ there f)
    exact Fin.ext (Option.some.inj equal)
  have fits := Fintype.card_le_of_injective _ injective
  rw [Fintype.card_fin, Fintype.card_fin] at fits
  exact fits

end Search

/-! ### The end of a search -/

section

variable {n : Nat} {next : Nat → List Nat} {limit : Option Nat} {roots : List Nat}

/-- What every step of a search keeps, in the form that its loop asks for. -/
theorem searched_step (s : Search) (_ : (Search.loop next limit).finished s = false) :
    Search.Searched n next limit roots s →
      Search.Searched n next limit roots ((Search.loop next limit).step s) :=
  Search.searched_advance

theorem searched_search (n : Nat) (next : Nat → List Nat) (limit : Option Nat) (roots : List Nat) :
    Search.Searched n next limit roots (search n next limit roots) :=
  (Search.loop next limit).run_keeps searched_step (Search.searched_start n next limit roots)

/-- **No hop count grows to the number of nodes**, on the whole way of a search. -/
theorem lt_of_mem_queue (k : Nat) {v d : Nat}
    (waits : (v, d) ∈ ((Search.loop next limit).after k (Search.start n roots)).queue) : d < n := by
  have known : Search.Searched n next limit roots _ := (Search.loop next limit).after_keeps
    searched_step k (Search.searched_start n next limit roots)
  exact known.lt_of_get (known.queued v d waits)

/-- No hop count is longer than the limit, on the whole way of a search. -/
theorem le_limit_of_mem_queue (k : Nat) {v d : Nat}
    (waits : (v, d) ∈ ((Search.loop next limit).after k (Search.start n roots)).queue) :
    ∀ l, limit = some l → d ≤ l := by
  have known : Search.Searched n next limit roots _ := (Search.loop next limit).after_keeps
    searched_step k (Search.searched_start n next limit roots)
  exact known.le_limit (known.queued v d waits)

/-- At the end nothing waits to be looked at. -/
theorem queue_search (n : Nat) (next : Nat → List Nat) (limit : Option Nat) (roots : List Nat) :
    (search n next limit roots).queue = [] :=
  List.isEmpty_iff.1 ((Search.loop next limit).finished_run (Search.start n roots))

/-- **A search among `n` nodes ends after at most `n` steps.** -/
theorem search_eq_after (n : Nat) (next : Nat → List Nat) (limit : Option Nat) (roots : List Nat) :
    search n next limit roots = (Search.loop next limit).after n (Search.start n roots) := by
  refine Loop.run_eq_after _ (Nat.le_of_eq ?_)
  show (Search.start n roots).ahead = n
  rw [Search.start, Search.ahead_foldl_see]
  simp [Search.ahead, Distances.unreached, List.countP_replicate]

/-- The search goes on from exactly the nodes that have a distance below the limit. -/
theorem mem_expanded_iff {v : Nat} :
    v ∈ (search n next limit roots).expanded ↔
      ∃ d, (search n next limit roots).distances.get v = some d ∧ Below limit d := by
  have known := searched_search n next limit roots
  refine ⟨known.below v, ?_⟩
  rintro ⟨d, found, below⟩
  rcases known.looked v d found with waits | on
  · rw [queue_search] at waits
    cases waits
  · exact on below

/-- **It goes on from every node at most once.** -/
theorem nodup_expanded (n : Nat) (next : Nat → List Nat) (limit : Option Nat) (roots : List Nat) :
    (search n next limit roots).expanded.Nodup :=
  (searched_search n next limit roots).distinct.of_append_left

/-- A distance belongs to a path from a root. -/
theorem leads_of_get {v d : Nat}
    (found : (search n next limit roots).distances.get v = some d) :
    ∃ r ∈ roots.filter (· < n), Leads (Hop n next) (fun _ => 1) r d v := by
  have known := searched_search n next limit roots
  induction d generalizing v with
  | zero =>
    have inRange : v < n := known.size ▸ Distances.lt_size_of_get found
    have root := (known.zero v inRange).1 found
    exact ⟨v, List.mem_filter.2 ⟨root, decide_eq_true inRange⟩, .here⟩
  | succ d hyp =>
    obtain ⟨u, behind, arc, _⟩ := known.before v d found
    obtain ⟨r, root, path⟩ := hyp behind
    exact ⟨r, root, .hop path arc⟩

/-- A path that is no longer than the limit leads to a node whose distance is no longer than it. -/
theorem get_of_leads {r k v : Nat} (root : r ∈ roots.filter (· < n))
    (path : Leads (Hop n next) (fun _ => 1) r k v) (near : ∀ l, limit = some l → k ≤ l) :
    ∃ d ≤ k, (search n next limit roots).distances.get v = some d := by
  have known := searched_search n next limit roots
  induction path with
  | here =>
    obtain ⟨listed, inRange⟩ := List.mem_filter.1 root
    exact ⟨0, Nat.le_refl 0, (known.zero r (of_decide_eq_true inRange)).2 listed⟩
  | @hop k u v path arc hyp =>
    obtain ⟨d, short, found⟩ := hyp fun l same => (Nat.le_succ k).trans (near l same)
    have on := mem_expanded_iff.2 ⟨d, found, fun l same => Nat.lt_of_le_of_lt short (near l same)⟩
    obtain ⟨e, close, there⟩ := known.closed u on d found v arc
    exact ⟨e, close.trans (Nat.add_le_add_right short 1), there⟩

theorem le_limit_of_get {v d : Nat}
    (found : (search n next limit roots).distances.get v = some d) :
    ∀ l, limit = some l → d ≤ l :=
  (searched_search n next limit roots).le_limit found

/-- **The distances of a search are the hops from its roots, up to the limit.** -/
theorem get_search_iff {v d : Nat} :
    (search n next limit roots).distances.get v = some d ↔
      hops (Hop n next) (roots.filter (· < n)) v = d ∧ ∀ l, limit = some l → d ≤ l := by
  unfold hops
  rw [distance_eq_iff]
  constructor
  · intro found
    have near := le_limit_of_get found
    refine ⟨⟨leads_of_get found, fun r root k path => ?_⟩, near⟩
    by_cases short : ∀ l, limit = some l → k ≤ l
    · obtain ⟨e, close, same⟩ := get_of_leads root path short
      rw [found] at same
      exact Option.some.inj same ▸ close
    · obtain ⟨l, same, longer⟩ : ∃ l, limit = some l ∧ l < k := by simpa using short
      exact (near l same).trans longer.le
  · rintro ⟨⟨⟨r, root, path⟩, least⟩, near⟩
    obtain ⟨e, close, found⟩ := get_of_leads root path near
    obtain ⟨s, start, other⟩ := leads_of_get found
    rw [found, Nat.le_antisymm close (least s start e other)]

/-- The nodes that a search goes on from are those closer to the roots than the limit. -/
theorem mem_expanded_iff_hops {v : Nat} :
    v ∈ (search n next limit roots).expanded ↔
      hops (Hop n next) (roots.filter (· < n)) v < ⊤ ∧
        ∀ l, limit = some l → hops (Hop n next) (roots.filter (· < n)) v < l := by
  rw [mem_expanded_iff]
  constructor
  · rintro ⟨d, found, below⟩
    rw [(get_search_iff.1 found).1]
    exact ⟨ENat.natCast_lt_top d, fun l same => by exact_mod_cast below l same⟩
  · rintro ⟨finite, near⟩
    obtain ⟨d, same⟩ := ENat.ne_top_iff_exists.1 finite.ne
    rw [← same] at near
    have below : Below limit d := fun l limited => by exact_mod_cast near l limited
    exact ⟨d, get_search_iff.2 ⟨same.symm, fun l limited => (below l limited).le⟩, below⟩

end

end CallGraph
