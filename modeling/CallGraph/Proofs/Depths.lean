import CallGraph.Proofs.Selection

/-!
**A depth map holds shortest distances.**

The theory of `DepthMap.measure`. The search behind it starts from several roots at once and does not
go on from nodes at the bound, so it notes a node when it comes there first, by a shortest way, and
notes none that is farther away than the bound. Roots may be given twice, in any order, or be no nodes.

* `DepthMap.Lies` — how far a node lies from the nearest root, if that is within the bound;
* `depth_iff_lies` — the depths that a measurement finds;
* `measure_exact` — what a measurement yields, how soon it ends, and that its hop counts fit.
-/

namespace CallGraph

namespace DepthMap

variable {g : Graph} {roots : List Nat} {bound : Nat} {interrupt : Interrupt}

/-- **How far a node lies from the roots**: as many edges as a shortest path has that leads there from
a root in the graph, if there are no more of them than the bound. -/
structure Lies (g : Graph) (roots : List Nat) (bound v d : Nat) : Prop where
  shortest : IsLeast {k | ∃ r ∈ roots, r < g.nodes.size ∧ Leads g.Arc (fun _ => 1) r k v} d
  within : d ≤ bound

/-- **The depth of a node is the length of a shortest path to it.** -/
theorem depth_iff_lies {v d : Nat} :
    (measured g roots bound).depth v = some d ↔ Lies g roots bound v d := by
  have shortest : hops g.Arc (roots.filter (· < g.nodes.size)) v = d ↔
      IsLeast {k | ∃ r ∈ roots, r < g.nodes.size ∧ Leads g.Arc (fun _ => 1) r k v} d := by
    rw [hops, distance_eq_iff]
    simp only [List.mem_filter, decide_eq_true_eq, and_assoc]
    refine and_congr Iff.rfl ⟨fun least k path => ?_, fun least r root k path => ?_⟩
    · obtain ⟨r, root, inGraph, path⟩ := path
      exact least r ⟨root, inGraph⟩ k path
    · exact least ⟨r, root.1, root.2, path⟩
  rw [depth_eq_some_iff, shortest]
  exact ⟨fun here => ⟨here.1, here.2⟩, fun lies => ⟨lies.shortest, lies.within⟩⟩

/-- A hop more than a number below a bound that fits into a word. -/
theorem toNat_succ {d : Nat} (below : d < bound) (fits : bound ≤ Word.largest 32) :
    (UInt32.ofNat d + 1).toNat = d + 1 := by
  have room : d + 1 < 2 ^ 32 := Nat.lt_of_lt_of_le (Nat.succ_lt_succ below) (Nat.succ_le_succ fits)
  rw [UInt32.toNat_add, UInt32.toNat_ofNat_of_lt' (Nat.lt_of_succ_lt room), UInt32.toNat_one,
    Nat.mod_eq_of_lt room]

/-- **A measurement yields the shortest distances up to its bound**, whatever the roots and the bound
are: a node has a depth exactly if a path from some root in the graph leads there that is no longer
than the bound, and then it is the length of a shortest one; a call is admitted exactly if both its
ends have a depth. The search comes to an end on every graph, after at most as many steps as there are
nodes. On its whole way no hop count is longer than the bound, and where it goes on, one hop more can
be counted in a word of 32 bits if the bound fits into one. -/
theorem measure_exact (quiet : interrupt.tripped? = none) (g : Graph) (roots : List Nat)
    (bound : Nat) :
    ∃ m, (measure g roots bound interrupt).run.value = .ok m ∧
      (∀ v d, m.depth v = some d ↔ Lies g roots bound v d) ∧
      (∀ e, m.admits e = true ↔
        (∃ d, Lies g roots bound e.caller d) ∧ ∃ d, Lies g roots bound e.callee d) ∧
      let loop := Search.loop g.calleesOf (some bound)
      let first := Search.start g.nodes.size roots
      loop.finished (loop.after g.nodes.size first) = true ∧
      m.distances = (loop.after g.nodes.size first).distances ∧
      ∀ k v d, (v, d) ∈ (loop.after k first).queue → d ≤ bound ∧
        (d < bound → bound ≤ Word.largest 32 → (UInt32.ofNat d + 1).toNat = d + 1) := by
  refine ⟨measured g roots bound, value_measure quiet, fun _ _ => depth_iff_lies, fun e => ?_, ?_, ?_,
    fun k v d waits => ⟨?_, toNat_succ⟩⟩
  · simp only [admits_iff_depth, depth_iff_lies]
  · rw [← search_eq_after]
    exact List.isEmpty_iff.2 (queue_search _ _ _ _)
  · rw [← search_eq_after]
    rfl
  · exact le_limit_of_mem_queue k waits bound rfl

/-- Four functions that call each other in a circle, with a shortcut, one of which also calls itself,
and a function that nobody calls. -/
def roundabout : Graph where
  nodes := #[{ id := "app::north", name := "north" }, { id := "app::east", name := "east" },
    { id := "app::south", name := "south" }, { id := "app::west", name := "west" },
    { id := "app::apart", name := "apart" }]
  edges := #[⟨0, 1, {}⟩, ⟨1, 2, {}⟩, ⟨2, 3, {}⟩, ⟨3, 0, {}⟩, ⟨0, 2, {}⟩, ⟨2, 2, {}⟩]

/-- One hop from a root that is given twice, after one that is no node. -/
theorem measure_exact_roundabout :
    Interrupt.none.tripped? = none ∧
    ∃ m, (measure roundabout [7, 0, 0] 1 .none).run.value = .ok m ∧
      [0, 1, 2, 3, 4, 7].map m.depth = [some 0, some 1, some 1, none, none, none] ∧
      (∀ v d, m.depth v = some d ↔ Lies roundabout [7, 0, 0] 1 v d) ∧
      ∀ e, m.admits e = true ↔ (∃ d, Lies roundabout [7, 0, 0] 1 e.caller d) ∧
        ∃ d, Lies roundabout [7, 0, 0] 1 e.callee d := by
  obtain ⟨m, value, depths, admitted, _⟩ :=
    measure_exact (show Interrupt.none.tripped? = none from rfl) roundabout [7, 0, 0] 1
  have found : (measure roundabout [7, 0, 0] 1 .none).run.value.map
      (fun m => [0, 1, 2, 3, 4, 7].map m.depth) =
        .ok [some 0, some 1, some 1, none, none, none] := by
    decide +kernel
  rw [value] at found
  exact ⟨rfl, m, value, Except.ok.inj found, depths, admitted⟩

end DepthMap

end CallGraph
