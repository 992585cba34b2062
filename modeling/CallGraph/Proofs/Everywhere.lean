import CallGraph.Proofs.Answer

/-!
**Walks from everywhere find the whole.**

A walk sees only part of a graph, but every call is seen by some walk: downstream by one that starts
at its caller, upstream by one that starts at its callee. So the walks from all nodes together find
what is selected from the graph as a whole, whatever the bound of the walks is.

* `Walk.exists_near` — every call is near to some start;
* `Walk.together` — the walks from some starts, `holds_together` — what they hold;
* `together_eq_selectWhole` — the walks from all nodes and the selection of the whole graph.
-/

namespace CallGraph

namespace Walk

variable {f : Filter} {direction : Direction} {bound : Nat} {interrupt : Interrupt}

/-! ### Starts that are near -/

/-- A walk goes on from its start, whatever its bound is. -/
theorem within_start (arc : Nat → Nat → Prop) (bound v : Nat) :
    Within bound (hops arc [v] v) := by
  have none : hops arc [v] v ≤ (0 : ℕ) := distance_le (List.mem_singleton.2 rfl) .here
  have less : ∀ d : ℕ∞, 0 < d → hops arc [v] v < d := fun d positive => none.trans_lt positive
  exact ⟨less ⊤ ENat.top_pos, fun limited => less bound (by exact_mod_cast limited)⟩

/-- **Every call is near to some start**: downstream to its caller, upstream to its callee. -/
theorem exists_near (f : Filter) (direction : Direction) (bound u v : Nat) :
    ∃ start, (start = u ∨ start = v) ∧ Near f direction bound start u v := by
  have here : ∀ w, Within bound (hops f.Passing [w] w) := within_start f.Passing bound
  cases direction with
  | callees => exact ⟨u, Or.inl rfl, here u⟩
  | callers => exact ⟨v, Or.inr rfl, here v⟩
  | both => exact ⟨u, Or.inl rfl, Or.inl (here u)⟩

/-! ### Walks from several starts -/

/-- A walk that starts at no node finds nothing. -/
theorem toward_of_unknown {start : Nat} (unknown : f.graph.contains start = false) :
    toward f direction bound start interrupt = .ok .empty := by
  have nothing : ∀ forward, along f forward bound start interrupt = .ok .empty := by
    intro forward
    rw [along, unknown, if_neg Bool.false_ne_true]
  cases direction with
  | callees => exact nothing true
  | callers => exact nothing false
  | both =>
    show (callees f bound start interrupt).bind (fun down =>
      (callers f bound start interrupt).bind fun up => .ok (down.union up)) = _
    rw [callees, callers, nothing true, nothing false]
    rfl

/-- What a walk holds, from whatever number it starts. -/
theorem exists_toward (quiet : interrupt.tripped? = none) (direction : Direction) (bound start : Nat) :
    ∃ flow, toward f direction bound start interrupt = .ok flow ∧
      flow.Holds fun u v => {i | i ∈ f.numbersOf u v ∧ f.graph.contains start = true ∧
        Near f direction bound start u v} := by
  cases known : f.graph.contains start with
  | true =>
    obtain ⟨flow, found, holds⟩ : ∃ flow, toward f direction bound start interrupt = .ok flow ∧ _ :=
      holds_toward known quiet
    exact ⟨flow, found, holds.congr fun u v i => and_congr_right fun _ => (and_iff_right rfl).symm⟩
  | false =>
    refine ⟨.empty, toward_of_unknown known, Flow.holds_empty.congr fun u v i => ?_⟩
    exact iff_of_false (Set.notMem_empty i) fun here => Bool.false_ne_true here.2.1

/-- The walks from some starts, one after another, united. -/
def together (f : Filter) (direction : Direction) (bound : Nat) (interrupt : Interrupt)
    (starts : List Nat) : Except Interruption Flow :=
  starts.foldlM (fun flow start => do
    let found ← toward f direction bound start interrupt
    return flow.union found) Flow.empty

/-- Walks from some starts hold the calls that are near to one of them. -/
theorem holds_together (quiet : interrupt.tripped? = none) (direction : Direction) (bound : Nat)
    (starts : List Nat) :
    ∃ flow, together f direction bound interrupt starts = .ok flow ∧
      flow.Holds fun u v => {i | i ∈ f.numbersOf u v ∧
        ∃ start ∈ starts, f.graph.contains start = true ∧ Near f direction bound start u v} := by
  -- The invariant: what has been united so far, and what the starts that are left will find.
  have all : ∀ (starts : List Nat) (before : Flow) (edges : Nat → Nat → Set Nat),
      before.Holds edges → ∃ flow, starts.foldlM (fun flow start => do
        let found ← toward f direction bound start interrupt
        return flow.union found) before = .ok flow ∧
        flow.Holds fun u v => edges u v ∪ {i | i ∈ f.numbersOf u v ∧
          ∃ start ∈ starts, f.graph.contains start = true ∧ Near f direction bound start u v} := by
    intro starts
    induction starts with
    | nil =>
      intro before edges holds
      exact ⟨before, rfl, holds.congr fun u v i => by simp⟩
    | cons start rest hyp =>
      intro before edges holds
      obtain ⟨found, value, holdsFound⟩ := exists_toward (f := f) quiet direction bound start
      obtain ⟨flow, later, holdsFlow⟩ := hyp _ _ (Flow.holds_union holds holdsFound)
      refine ⟨flow, ?_, holdsFlow.congr fun u v i => ?_⟩
      · rw [List.foldlM_cons, value]
        exact later
      · simp only [Set.mem_union, Set.mem_ofPred_eq, List.mem_cons, exists_eq_or_imp, and_or_left,
          or_assoc]
  obtain ⟨flow, value, holds⟩ := all starts .empty _ Flow.holds_empty
  exact ⟨flow, value, holds.congr fun u v i => or_iff_right (Set.notMem_empty i)⟩

/-- **Walks from everywhere find the whole.** The walks from all nodes, in whatever order and with
whatever bound, find together what is selected from the whole graph: downstream, upstream and both
ways. It is every call that the filter passes. -/
theorem together_eq_selectWhole (quiet : interrupt.tripped? = none) {starts : List Nat}
    (all : ∀ v ∈ f.graph.nodeNumbers, v ∈ starts) :
    ∃ flow, (selectWhole f.graph f none interrupt).run.value = .ok flow ∧
      (∀ direction bound, together f direction bound interrupt starts = .ok flow) ∧
      flow.Selects f fun _ _ => True := by
  obtain ⟨flow, selected, holds⟩ := holds_selectWhole (f := f) rfl quiet none
  have whole : flow.Holds f.numbersOf := holds.congr fun u v i => by
    simp only [Filter.numbersOf, Option.all_none, true_and]
  refine ⟨flow, selected, fun direction bound => ?_, ?_⟩
  · obtain ⟨other, value, holdsOther⟩ := holds_together (f := f) quiet direction bound starts
    rw [value]
    refine congrArg Except.ok ((holdsOther.congr fun u v i => ?_).unique whole)
    refine and_iff_left_of_imp fun passing => ?_
    -- The walk that sees the call starts at an end of it, and this is a node.
    obtain ⟨start, isEnd, near⟩ := exists_near f direction bound u v
    obtain ⟨left, right⟩ : u < f.graph.nodes.size ∧ v < f.graph.nodes.size :=
      Filter.Passing.lt ⟨i, passing⟩
    have inRange : start < f.graph.nodes.size := by
      rcases isEnd with rfl | rfl
      · exact left
      · exact right
    exact ⟨start, all start (List.mem_range.2 inRange), decide_eq_true inRange, near⟩
  · exact (whole.congr fun u v i => (and_iff_left trivial).symm).selects

/-- The nodes of `pingPong`, starting with the second one and one hop from each. -/
theorem together_eq_selectWhole_pingPong :
    Interrupt.none.tripped? = none ∧ (∀ v ∈ pingPong.nodeNumbers, v ∈ [1, 0]) ∧
    ∃ flow, (selectWhole pingPong ⟨pingPong, {}, none⟩ none Interrupt.none).run.value = .ok flow ∧
      (∀ direction bound,
        together ⟨pingPong, {}, none⟩ direction bound Interrupt.none [1, 0] = .ok flow) ∧
      flow.Selects ⟨pingPong, {}, none⟩ fun _ _ => True := by
  have all : ∀ v ∈ pingPong.nodeNumbers, v ∈ [1, 0] := by decide
  exact ⟨rfl, all, together_eq_selectWhole (f := ⟨pingPong, {}, none⟩) rfl all⟩

end Walk

end CallGraph
