import CallGraph.Proofs.Import
import CallGraph.Proofs.Stripped

/-!
**Graphs that are built.**

Graphs come from the empty one by the operations on graphs. What each operation keeps holds of all
of them.

* `Built` — the graphs that the operations make;
* `Built.wellFormed`, `Built.nodup_roots` — they are well formed, and declare no root twice.
-/

namespace CallGraph

namespace Graph

variable {g : Graph}

/-- **A graph that is made by the operations on graphs.** Only nodes that there are can be joined or
declared by number. -/
inductive Built : Graph → Prop
  | empty : Built empty
  | addNode {g : Graph} {n : Node} : Built g → (∀ l ∈ n.location, l.line ≤ maxLine) →
    Built (g.addNode n).value.1
  | addEdge {g : Graph} {e : Edge} : Built g →
    e.caller < g.nodes.size ∧ e.callee < g.nodes.size →
    (∀ l ∈ e.call.site, l.line ≤ maxLine) → Built (g.addEdge e)
  | connect {g : Graph} {caller callee : String} {call : Call} : Built g →
    (∀ l ∈ call.site, l.line ≤ maxLine) → Built (g.connect caller callee call).value
  | declareRoot {g : Graph} {v : Nat} : Built g → v < g.nodes.size → Built (g.declareRoot v)
  | merge {g : Graph} {d : Document} : Built g → d.LinesFit → Built (d.mergeInto g).value
  | strip {g : Graph} : Built g → Built g.withoutSynthetic

theorem WellFormed.merge (wf : g.WellFormed) {d : Document} (fits : d.LinesFit) :
    (d.mergeInto g).value.WellFormed :=
  Document.wellFormed_addRoots (Document.wellFormed_addEdges
    (Document.wellFormed_addNodes wf fits.nodes) fits.edges)

/-- **Every graph that is built is well formed.** -/
theorem Built.wellFormed (built : Built g) : g.WellFormed := by
  induction built with
  | empty => exact wellFormed_empty
  | addNode _ fits wf => exact wf.addNode fits
  | addEdge _ ends fits wf => exact wf.addEdge ends fits
  | connect _ fits wf => exact wf.connect fits
  | declareRoot _ inRange wf => exact wf.declareRoot inRange
  | merge _ fits wf => exact wf.merge fits
  | strip _ wf => exact wf.withoutSynthetic

/-! ### Roots -/

theorem roots_addNode (g : Graph) (n : Node) : (g.addNode n).value.1.roots = g.roots :=
  (ensured_ensure g n).roots

theorem roots_connect (g : Graph) (caller callee : String) (call : Call) :
    (g.connect caller callee call).value.roots = g.roots := by
  unfold connect
  split <;> rfl

theorem nodup_roots_declareRoot (distinct : g.roots.Nodup) (v : Nat) :
    (g.declareRoot v).roots.Nodup := by
  show ([v].foldl declareRoot g).roots.Nodup
  exact nodup_roots_foldl_declareRoot distinct

/-- A node that is kept has one number, so it is declared once. -/
theorem nodup_roots_withoutSynthetic (distinct : g.roots.Nodup) :
    g.withoutSynthetic.roots.Nodup := by
  refine distinct.filterMap fun v w a atV atW => ?_
  have first := renumber?_eq_some_iff.1 (Option.mem_def.1 atV)
  rw [renumber?_eq_some_iff.1 (Option.mem_def.1 atW)] at first
  exact (Option.some.inj first).symm

end Graph

namespace Document

open CallGraph.Graph

variable {g : Graph}

theorem roots_addNodes (g : Graph) (rs : List NodeRecord) : (addNodes g rs).value.roots = g.roots := by
  induction rs generalizing g with
  | nil => rfl
  | cons r rest hyp => exact (hyp _).trans (roots_addNode g r.toNode)

theorem roots_addEdges (g : Graph) (rs : List EdgeRecord) : (addEdges g rs).value.roots = g.roots := by
  induction rs generalizing g with
  | nil => rfl
  | cons r rest hyp => exact (hyp _).trans (roots_connect g r.caller r.callee r.toCall)

theorem nodup_roots_addRoots {ids : List String} (distinct : g.roots.Nodup) :
    (addRoots g ids).value.roots.Nodup := by
  induction ids generalizing g with
  | nil => exact distinct
  | cons id rest hyp =>
    rw [addRoots]
    split
    · exact hyp (nodup_roots_declareRoot distinct _)
    · exact hyp distinct

theorem nodup_roots_mergeInto (distinct : g.roots.Nodup) (d : Document) :
    (d.mergeInto g).value.roots.Nodup := by
  refine nodup_roots_addRoots ?_
  show (addEdges (addNodes g d.nodes).value d.edges).value.roots.Nodup
  rwa [roots_addEdges, roots_addNodes]

end Document

/-- **No root is declared twice.** -/
theorem Graph.Built.nodup_roots {g : Graph} (built : g.Built) : g.roots.Nodup := by
  induction built with
  | empty => exact List.nodup_nil
  | addNode _ _ distinct => rwa [roots_addNode]
  | addEdge _ _ _ distinct => exact distinct
  | connect _ _ distinct => rwa [roots_connect]
  | declareRoot _ _ distinct => exact nodup_roots_declareRoot distinct _
  | merge _ _ distinct => exact Document.nodup_roots_mergeInto distinct _
  | strip _ distinct => exact nodup_roots_withoutSynthetic distinct

end CallGraph
