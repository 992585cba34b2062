import CallGraph.Graph
import CallGraph.Loop
import CallGraph.Seen

/-!
**Call graphs without synthetic nodes.**

Builders put in nodes that no source contains: wrappers, thunks, hooks. A drawing of the whole
program leaves them out, and a chain `caller → synthetic … → callee` becomes one call that is
written where the first call of the chain is.

* `Chain` — a walk behind a call to a synthetic node, `advanceChain` — its step. The walk ends on
  every graph, cycles of synthetic nodes included (`chainLoop`);
* `landings` — where a call ends up;
* `withoutSynthetic` — the graph of the other nodes.
-/

namespace CallGraph

/-- A walk behind a call to a synthetic node. -/
structure Chain where
  /-- The synthetic nodes still to be looked at, the next one first. -/
  stack : List Nat
  /-- The synthetic nodes that have been looked at. -/
  seen : List Nat := []
  /-- The other nodes that they call, in the order in which the walk came to them. -/
  found : List Nat := []

namespace Graph

/-- Looks at the next synthetic node, unless that has been done. -/
def advanceChain (g : Graph) (c : Chain) : Chain :=
  match c.stack with
  | [] => c
  | v :: rest =>
    if v < g.nodes.size ∧ v ∉ c.seen then
      { stack := ((g.calleesOf v).filter g.isSynthetic).reverse ++ rest
        seen := v :: c.seen
        found := c.found ++ (g.calleesOf v).filter fun w => !g.isSynthetic w }
    else { c with stack := rest }

/-- A walk goes on until its stack is empty. A node is looked at once, and only then puts nodes on
the stack, no more of them than there are edges. -/
def chainLoop (g : Graph) : Loop Chain where
  finished c := c.stack.isEmpty
  step := g.advanceChain
  rank c := missing g.nodeNumbers c.seen * (g.edges.size + 1) + c.stack.length
  step_lt c going := by
    obtain ⟨v, rest, waiting⟩ :=
      List.exists_cons_of_ne_nil (l := c.stack) fun empty => by simp [empty] at going
    unfold advanceChain
    rw [waiting]
    dsimp only
    split
    · rename_i new
      have fewer : missing g.nodeNumbers (v :: c.seen) < missing g.nodeNumbers c.seen :=
        missing_lt (fun _ => List.mem_cons_of_mem v) (List.mem_range.2 new.1) new.2
          List.mem_cons_self
      have pushed : ((g.calleesOf v).filter g.isSynthetic).length ≤ g.edges.size :=
        Nat.le_trans (List.length_filter_le _ _) (g.length_calleesOf_le v)
      have room := Nat.mul_le_mul_right (g.edges.size + 1) fewer
      rw [Nat.succ_mul] at room
      simp only [List.length_append, List.length_reverse, List.length_cons]
      omega
    · simp

/-- Where a call to a node ends up: at the node, or at what chains of synthetic nodes lead to. -/
def landings (g : Graph) (v : Nat) : List Nat :=
  if g.isSynthetic v then (g.chainLoop.run { stack := [v] }).found else [v]

/-- The nodes that are not synthetic, in order. -/
def kept (g : Graph) : List Nat :=
  g.nodeNumbers.filter fun v => !g.isSynthetic v

/-- The number a node gets once the synthetic ones are left out. -/
def renumber? (g : Graph) (v : Nat) : Option Nat :=
  g.kept.findIdx? (· == v)

/-- The calls between nodes that are not synthetic, by caller and then in the order of the calls
that they begin with. -/
def bridged (g : Graph) : List Edge :=
  g.kept.flatMap fun v =>
    (g.outgoing v).flatMap fun (e, _) =>
      (g.landings e.callee).map fun w => ⟨v, w, e.call⟩

/-- The graph without its synthetic nodes. -/
def withoutSynthetic (g : Graph) : Graph where
  nodes := (g.kept.filterMap g.node?).toArray
  edges := (g.bridged.filterMap fun e =>
    match g.renumber? e.caller, g.renumber? e.callee with
    | some u, some v => some ⟨u, v, e.call⟩
    | _, _ => none).toArray
  roots := g.roots.filterMap g.renumber?

end Graph

end CallGraph
