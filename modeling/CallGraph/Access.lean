import CallGraph.Graph.Store
import CallGraph.Program.Positions
import CallGraph.Selection
import CallGraph.Walk

/-!
**Queries by numbers.**

A query goes from number to number: from a node to the edges that are listed at it, from an edge to its
ends, from a node to its entry in a table. Here each such step is one that may fail, because there is
nothing under the number, and a failed step ends the whole query. This is not what runs; it is there to
say which steps of what runs go wrong.

* `node?`, `outgoing?`, `incoming?` — what a stored graph has under a number;
* `verdict?` — the verdict on a call;
* `search?` — a search, `measure?`, `along?`, `toward?`, `run?` — what searches are made for;
* `selectWhole?`, `strip?` — what is made of a whole graph, `perform?` — one operation on it;
* `render?` — the text of a flow.
-/

namespace CallGraph

/-! ### Loops -/

namespace Loop

variable {State : Type}

/-- A loop whose step may fail, which ends it. -/
def mayFail (finished : State → Bool) (step? : State → Option State) (rank : State → Nat)
    (lower : ∀ s s', finished s = false → step? s = some s' → rank s' < rank s) :
    Loop (Option State) where
  finished s := s.all finished
  step s := s.bind step?
  rank s := (s.map (rank · + 1)).getD 0
  step_lt s going := by
    cases s with
    | none => cases going
    | some s =>
      rw [Option.bind_some]
      cases found : step? s with
      | none => exact Nat.succ_pos _
      | some s' => exact Nat.succ_lt_succ (lower s s' going found)

end Loop

namespace Access

open Program.Positions (filter?)

/-! ### Nodes and edges -/

/-- The node with a number. -/
def node? (s : Store) (v : Nat) : Option Node :=
  s.slots[v]?.map (·.node)

/-- Edges with their numbers, by increasing number. -/
def listed? (s : Store) (numbers : List Nat) : Option (List (Edge × Nat)) :=
  numbers.mergeSort.mapM fun i => s.edges[i]?.map fun e => (e, i)

/-- The calls that a node makes. -/
def outgoing? (s : Store) (v : Nat) : Option (List (Edge × Nat)) := do
  let slot ← s.slots[v]?
  listed? s slot.leaving

/-- The calls that a node receives. -/
def incoming? (s : Store) (v : Nat) : Option (List (Edge × Nat)) := do
  let slot ← s.slots[v]?
  listed? s slot.entering

/-- The nodes that a node calls, once for every call. -/
def calleesOf? (s : Store) (v : Nat) : Option (List Nat) :=
  (outgoing? s v).map fun calls => calls.map (·.1.callee)

/-! ### Verdicts -/

/-- Whether an edge counts as synthetic. -/
def isSyntheticEdge? (s : Store) (e : Edge) : Option Bool := do
  let caller ← node? s e.caller
  let callee ← node? s e.callee
  return e.call.synthetic || caller.synthetic || callee.synthetic || caller.modulePath.isNone ||
    callee.modulePath.isNone

/-- Whether an edge is a call with an end in a module. -/
def touches? (s : Store) (module : String) (e : Edge) (v : Nat) : Option Bool := do
  if ← isSyntheticEdge? s e then return false
  let n ← node? s v
  return n.modulePath == some module

/-- Whether a call between two modules touches the module in focus, or leads from a node called from
there to one that calls back into it. -/
def inFocus? (s : Store) (module : String) (e : Edge) (callerPath calleePath : String) :
    Option Bool :=
  if callerPath = module ∨ calleePath = module then some true
  else do
    let received ← incoming? s e.caller
    let calledFrom ← received.anyM fun x => touches? s module x.1 x.1.caller
    if !calledFrom then return false
    let made ← outgoing? s e.callee
    made.anyM fun x => touches? s module x.1 x.1.callee

/-- The verdict on a call between two nodes with modules, before the focus is looked at. It hangs on the
two nodes alone. -/
def early (config : FilterConfig) (e : Edge) (caller callee : Node)
    (callerPath calleePath : String) : Verdict :=
  Filter.judge ⟨.empty, config, none⟩ e caller callee callerPath calleePath

/-- The verdict on a call between two nodes with modules. -/
def judge? (s : Store) (config : FilterConfig) (focus : Option String) (e : Edge)
    (caller callee : Node) (callerPath calleePath : String) : Option Verdict :=
  match early config e caller callee callerPath calleePath, focus with
  | some reason, _ => some (some reason)
  | none, none => some none
  | none, some module =>
    (inFocus? s module e callerPath calleePath).map fun inside =>
      if inside then none else some .outOfFocus

/-- The verdict on a call. -/
def verdict? (s : Store) (config : FilterConfig) (focus : Option String) (e : Edge) :
    Option Verdict :=
  if e.caller < s.slots.size && e.callee < s.slots.size then do
    if ← isSyntheticEdge? s e then return some .synthetic
    let caller ← node? s e.caller
    let callee ← node? s e.callee
    match caller.modulePath, callee.modulePath with
    | some callerPath, some calleePath =>
      judge? s config focus e caller callee callerPath calleePath
    | _, _ => return some .synthetic
  else some (some .dangling)

/-- Whether a call is kept. -/
def passes? (s : Store) (config : FilterConfig) (focus : Option String) (e : Edge) : Option Bool :=
  (verdict? s config focus e).map Option.isNone

/-! ### Searches -/

/-- Comes to a node, whose entry is looked up in the table of distances. -/
def see? (hops : Nat) (s : Search) (v : Nat) : Option Search :=
  match s.distances[v]? with
  | none => none
  | some none => some { s with
      distances := s.distances.setIfInBounds v (some hops)
      queue := s.queue ++ [(v, hops)] }
  | some (some _) => some s

/-- Looks at the next node, and goes on from there unless it lies at the limit. -/
def advance? (next? : Nat → Option (List Nat)) (limit : Option Nat) (s : Search) : Option Search :=
  match s.queue with
  | [] => some s
  | (v, hops) :: rest =>
    if limit.all (hops < ·) then do
      let ahead ← next? v
      ahead.foldlM (see? (hops + 1)) { s with queue := rest, expanded := v :: s.expanded }
    else some { s with queue := rest }

/-- To come to a node that there is is to come to it. -/
theorem see?_of_lt {hops v : Nat} {s : Search} (inRange : v < s.distances.size) :
    see? hops s v = some (s.see hops v) := by
  unfold see? Search.see
  rw [Array.getElem?_eq_getElem inRange]
  cases s.distances[v] <;> rfl

theorem eq_of_see? {hops v : Nat} {s s' : Search} (found : see? hops s v = some s') :
    s' = s.see hops v := by
  by_cases inRange : v < s.distances.size
  · rw [see?_of_lt inRange] at found
    exact (Option.some.inj found).symm
  · unfold see? at found
    rw [Array.getElem?_eq_none (Nat.le_of_not_lt inRange)] at found
    cases found

theorem eq_of_foldlM_see? {hops : Nat} {vs : List Nat} {s s' : Search}
    (found : vs.foldlM (see? hops) s = some s') : s' = vs.foldl (Search.see hops) s := by
  induction vs generalizing s with
  | nil => exact (Option.some.inj found).symm
  | cons v rest hyp =>
    rw [List.foldlM_cons] at found
    obtain ⟨between, first, later⟩ := Option.bind_eq_some_iff.1 found
    rw [List.foldl_cons, ← eq_of_see? first]
    exact hyp later

/-- A step that does not fail is a step of a search. -/
theorem eq_of_advance? {next? : Nat → Option (List Nat)} {limit : Option Nat} {s s' : Search}
    (found : advance? next? limit s = some s') :
    s' = s.advance (fun v => (next? v).getD []) limit := by
  unfold advance? at found
  unfold Search.advance
  cases waiting : s.queue with
  | nil =>
    rw [waiting] at found
    exact (Option.some.inj found).symm
  | cons first rest =>
    obtain ⟨v, hops⟩ := first
    rw [waiting] at found
    dsimp only at found ⊢
    by_cases near : limit.all (hops < ·) = true
    · rw [if_pos near] at found ⊢
      obtain ⟨ahead, calls, found⟩ := Option.bind_eq_some_iff.1 found
      rw [calls]
      exact eq_of_foldlM_see? found
    · rw [if_neg near] at found ⊢
      exact (Option.some.inj found).symm

/-- A search goes on until its queue is empty, or a step fails. -/
def loop? (next? : Nat → Option (List Nat)) (limit : Option Nat) : Loop (Option Search) :=
  .mayFail (·.queue.isEmpty) (advance? next? limit) Search.ahead
    fun s s' going found => by
      rw [eq_of_advance? found]
      exact (Search.loop (fun v => (next? v).getD []) limit).step_lt s going

/-- Searches among `n` nodes from those of the roots on that are nodes. -/
def search? (n : Nat) (next? : Nat → Option (List Nat)) (limit : Option Nat) (roots : List Nat) :
    Option Search := do
  let first ← (roots.filter (· < n)).foldlM (see? 0) ⟨Array.replicate n none, [], []⟩
  (loop? next? limit).run (some first)

/-- Measures the distance of every node from the roots. -/
def measure? (s : Store) (roots : List Nat) (bound : Nat) (interrupt : Interrupt) :
    Option (Except Interruption DepthMap) :=
  match if roots.any (· < s.slots.size) then interrupt.tripped? else none with
  | some cause => some (.error cause)
  | none => do
    let found ← search? s.slots.size (calleesOf? s) (some bound) roots
    return .ok ⟨found.distances, bound⟩

/-! ### Walks -/

/-- The calls of a node that a filter passes. -/
def callsAt? (s : Store) (config : FilterConfig) (focus : Option String) (forward : Bool)
    (v : Nat) : Option (List (Edge × Nat)) := do
  let calls ← if forward then outgoing? s v else incoming? s v
  filter? (fun x => passes? s config focus x.1) calls

/-- The nodes that a walk may go on to from a node. -/
def next? (s : Store) (config : FilterConfig) (focus : Option String) (forward : Bool) (v : Nat) :
    Option (List Nat) :=
  (callsAt? s config focus forward v).map fun calls => calls.map fun x => Walk.ahead forward x.1

/-- The passing calls at the nodes from which a walk goes on. -/
def found? (s : Store) (config : FilterConfig) (focus : Option String) (forward : Bool)
    (bound start : Nat) : Option (List (Edge × Nat)) := do
  let seen ← search? s.slots.size (next? s config focus forward) (Walk.limit bound) [start]
  let parts ← seen.expanded.reverse.mapM (callsAt? s config focus forward)
  return parts.flatten

/-- One walk. -/
def along? (s : Store) (config : FilterConfig) (focus : Option String) (forward : Bool)
    (bound start : Nat) (interrupt : Interrupt) : Option (Except Interruption Flow) :=
  if start < s.slots.size then
    match interrupt.tripped? with
    | some cause => some (.error cause)
    | none => (found? s config focus forward bound start).map fun calls => .ok (Flow.ofEdges calls)
  else some (.ok .empty)

/-- A walk in a given direction. -/
def toward? (s : Store) (config : FilterConfig) (focus : Option String) (direction : Direction)
    (bound start : Nat) (interrupt : Interrupt) : Option (Except Interruption Flow) :=
  match direction with
  | .callees => along? s config focus true bound start interrupt
  | .callers => along? s config focus false bound start interrupt
  | .both => do
    let down ← along? s config focus true bound start interrupt
    let up ← along? s config focus false bound start interrupt
    return do return (← down).union (← up)

/-- A walk with a report of it. The walk alone may start anywhere, but the report looks its start up once
more, by its number and without asking whether there is such a node. -/
def run? (s : Store) (config : FilterConfig) (focus : Option String) (direction : Direction)
    (bound start : Nat) (interrupt : Interrupt) : Option (Except Interruption Flow) := do
  match ← toward? s config focus direction bound start interrupt with
  | .error cause => return .error cause
  | .ok flow =>
    let _ ← node? s start
    return .ok flow

/-! ### Whole graphs -/

/-- The part of a whole graph that a filter passes and a depth map admits, node by node. -/
def selectWhole? (s : Store) (config : FilterConfig) (focus : Option String)
    (depth : Option DepthMap) (interrupt : Interrupt) : Option (Except Interruption Flow) :=
  match if 0 < s.slots.size then interrupt.tripped? else none with
  | some cause => some (.error cause)
  | none => do
    let calls ← (List.range s.slots.size).mapM (outgoing? s)
    let kept ← filter? (fun x => passes? s config focus x.1) calls.flatten
    return .ok (Flow.ofEdges (kept.filter fun x => depth.all (·.admits x.1)))

/-- Looks at the next synthetic node, unless that has been done. A node without an entry in the table of
new numbers is synthetic. -/
def advanceChain? (s : Store) (table : List (Option Nat)) (c : Chain) : Option Chain :=
  match c.stack with
  | [] => some c
  | v :: rest =>
    if v < s.slots.size then
      if v ∈ c.seen then some { c with stack := rest }
      else do
        let callees ← calleesOf? s v
        let synthetic ← filter? (fun w => table[w]?.map Option.isNone) callees
        let others ← filter? (fun w => table[w]?.map Option.isSome) callees
        return {
          stack := synthetic.reverse ++ rest
          seen := v :: c.seen
          found := c.found ++ others }
    else none

/-- How many calls all nodes list together. -/
def listings (s : Store) : Nat :=
  (s.slots.toList.map (·.leaving)).flatten.length

/-- How many steps a walk behind a call may still make. -/
def chainRank (s : Store) (c : Chain) : Nat :=
  missing (List.range s.slots.size) c.seen * (listings s + 1) + c.stack.length

theorem length_of_mapM {α β : Type} {f : α → Option β} {xs : List α} {ys : List β}
    (found : xs.mapM f = some ys) : ys.length = xs.length := by
  induction xs generalizing ys with
  | nil =>
    rw [List.mapM_nil] at found
    exact (Option.some.inj found) ▸ rfl
  | cons x rest hyp =>
    rw [List.mapM_cons] at found
    obtain ⟨y, _, found⟩ := Option.bind_eq_some_iff.1 found
    obtain ⟨others, later, found⟩ := Option.bind_eq_some_iff.1 found
    rw [← Option.some.inj found, List.length_cons, List.length_cons, hyp later]

theorem length_le_of_filter? {α : Type} {test : α → Option Bool} {xs ys : List α}
    (found : filter? test xs = some ys) : ys.length ≤ xs.length := by
  induction xs generalizing ys with
  | nil => exact (Option.some.inj found) ▸ Nat.le_refl _
  | cons x rest hyp =>
    obtain ⟨passes, _, found⟩ := Option.bind_eq_some_iff.1 found
    obtain ⟨others, later, found⟩ := Option.bind_eq_some_iff.1 found
    have fewer := hyp later
    rw [← Option.some.inj found]
    split
    · exact Nat.succ_le_succ fewer
    · exact Nat.le_succ_of_le fewer

/-- A node makes no more calls than are listed. -/
theorem length_le_of_calleesOf? {s : Store} {v : Nat} {vs : List Nat}
    (found : calleesOf? s v = some vs) : vs.length ≤ listings s := by
  obtain ⟨calls, listed, rfl⟩ := Option.map_eq_some_iff.1 found
  obtain ⟨slot, here, listed⟩ := Option.bind_eq_some_iff.1 listed
  have inSlots : slot ∈ s.slots.toList := Array.mem_toList_iff.2 (Array.mem_of_getElem? here)
  rw [List.length_map, length_of_mapM listed, List.length_mergeSort]
  exact (List.sublist_flatten_of_mem (List.mem_map_of_mem inSlots)).length_le

/-- A step that does not fail leaves fewer steps to make. -/
theorem chainRank_lt {s : Store} {table : List (Option Nat)} {c c' : Chain}
    (going : c.stack.isEmpty = false) (found : advanceChain? s table c = some c') :
    chainRank s c' < chainRank s c := by
  unfold advanceChain? at found
  unfold chainRank
  split at found
  · rename_i done
    rw [done] at going
    cases going
  · rename_i v rest waiting
    rw [waiting]
    split at found
    · rename_i inRange
      split at found
      · rw [← Option.some.inj found]
        exact Nat.lt_succ_self _
      · rename_i new
        obtain ⟨callees, calls, found⟩ := Option.bind_eq_some_iff.1 found
        obtain ⟨synthetic, pushed, found⟩ := Option.bind_eq_some_iff.1 found
        obtain ⟨others, _, found⟩ := Option.bind_eq_some_iff.1 found
        have fewer : missing (List.range s.slots.size) (v :: c.seen) <
            missing (List.range s.slots.size) c.seen :=
          missing_lt (fun _ => List.mem_cons_of_mem v) (List.mem_range.2 inRange) new
            List.mem_cons_self
        have room := Nat.mul_le_mul_right (listings s + 1) fewer
        rw [Nat.succ_mul] at room
        have few : synthetic.length ≤ listings s :=
          Nat.le_trans (length_le_of_filter? pushed) (length_le_of_calleesOf? calls)
        rw [← Option.some.inj found]
        simp only [List.length_append, List.length_reverse, List.length_cons]
        omega
    · cases found

/-- A walk goes on until its stack is empty, or a step fails. -/
def chainLoop? (s : Store) (table : List (Option Nat)) : Loop (Option Chain) :=
  .mayFail (·.stack.isEmpty) (advanceChain? s table) (chainRank s) fun _ _ => chainRank_lt

/-- Where a call to a node ends up. -/
def landings? (s : Store) (table : List (Option Nat)) (v : Nat) : Option (List Nat) := do
  match ← table[v]? with
  | some _ => return [v]
  | none =>
    let walked ← (chainLoop? s table).run (some { stack := [v] })
    return walked.found

/-- The calls that come from one call of a node with a new number: one for each node at which it ends
up. -/
def bridge? (s : Store) (table : List (Option Nat)) (a : Nat) (first : Edge) :
    Option (List Edge) := do
  let ends ← landings? s table first.callee
  let numbers ← ends.mapM fun w => table[w]?
  return numbers.filterMap fun b => b.map fun b => ⟨a, b, first.call⟩

/-- The calls that come from the calls of a node. -/
def bridgesAt? (s : Store) (table : List (Option Nat)) (v : Nat) : Option (List Edge) := do
  match ← table[v]? with
  | none => return []
  | some a =>
    let calls ← outgoing? s v
    let parts ← calls.mapM fun x => bridge? s table a x.1
    return parts.flatten

/-- Adds an edge between two numbered nodes. -/
def addEdge? (s : Store) (e : Edge) : Option Store :=
  if e.caller < s.slots.size && e.callee < s.slots.size then some (s.addEdge e) else none

/-- The store of the graph without its synthetic nodes. Every node has its place in the table of new
numbers, in which each declared root is looked up. -/
def strip? (s : Store) : Option Store := do
  let copy := (s.slots.toList.map (·.node)).foldl Store.copyNode ({}, [])
  let parts ← (List.range s.slots.size).mapM (bridgesAt? s copy.2)
  let joined ← parts.flatten.foldlM addEdge? copy.1
  let roots ← s.roots.mapM fun r => copy.2[r]?
  return (roots.filterMap id).foldl Store.declareRoot joined

/-- Does an operation on a store. -/
def perform? (s : Store) : Operation → Option Store
  | .addEdge e => addEdge? s e
  | .strip => strip? s
  | op => some (s.perform op)

/-! ### Texts -/

open Diagram

/-- The nodes of a flow with their records, in the order of a drawing. -/
def sortedNodes? (s : Store) (f : Flow) : Option (List (Nat × Node)) := do
  let members ← f.nodes.mapM fun v => (node? s v).map fun n => (v, n)
  return members.mergeSort fun a b => (nodeOrder a.2 b.2).isLE

/-- The sections of a drawing. -/
def layout? (s : Store) (f : Flow) (grouping : Grouping) : Option (List Section) :=
  (sortedNodes? s f).map fun members =>
    match grouping with
    | .flat => plain members
    | .byModule => grouped "pkg" moduleKey plain members
    | .byType => grouped "type" typeKey plain members
    | .byModuleAndType => grouped "pkg" moduleKey (grouped "type" typeKey plain) members

/-- How a kind of drawing writes what it declares, at a depth and under a number. -/
structure Style where
  node : Nat → Nat → Node → String
  opening : Nat → Nat → String → List String
  closing : Nat → String

/-- The lines of flowcharts. -/
def mermaid : Style where
  node _ i n := "N" ++ i.repr ++ "[\"" ++ Mermaid.label n ++ "\"]"
  opening _ k title := [Mermaid.groupLine k title]
  closing _ := "end"

/-- The lines of digraphs. -/
def dot : Style where
  node indent i n := Dot.pad indent ++ "N" ++ i.repr ++ " [label=\"" ++
    Dot.escapeLabel (Dot.label n) ++ "\", style=\"" ++ (Dot.look n).2 ++ "\", fillcolor=\"" ++
    (Dot.look n).1 ++ "\"];"
  opening := Dot.clusterLines
  closing indent := Dot.pad indent ++ "\x7d"

mutual

/-- The lines of a section, and how many groups have been opened by its end. -/
def sectionLines? (s : Store) (style : Style) (ns : Numbering) (indent groups : Nat) :
    Section → Option (List String × Nat)
  | .node v => (node? s v).map fun n => ([style.node indent (ns.number v) n], groups)
  | .group title parts => do
    let inner ← allLines? s style ns (indent + 1) (groups + 1) parts
    return (style.opening indent (groups + 1) title ++ inner.1 ++ [style.closing indent], inner.2)

/-- The lines of some sections, and how many groups have been opened by their end. -/
def allLines? (s : Store) (style : Style) (ns : Numbering) (indent groups : Nat) :
    List Section → Option (List String × Nat)
  | [] => some ([], groups)
  | part :: rest => do
    let first ← sectionLines? s style ns indent groups part
    let others ← allLines? s style ns indent first.2 rest
    return (first.1 ++ others.1, others.2)

end

/-- A flowchart. -/
def renderMermaid? (s : Store) (f : Flow) (grouping : Grouping) : Option String := do
  let sections ← layout? s f grouping
  let ns := numbering sections
  let declared ← allLines? s mermaid ns 0 0 sections
  return "\n".intercalate
    ("flowchart LR" :: declared.1 ++ (sortedArcs ns f).map Mermaid.arcLine) ++ "\n"

/-- A digraph. -/
def renderDot? (s : Store) (f : Flow) (grouping : Grouping) : Option String := do
  let sections ← layout? s f grouping
  let ns := numbering sections
  let declared ← allLines? s dot ns 1 0 sections
  return "\n".intercalate
    (Dot.opening ++ declared.1 ++ [""] ++ (sortedArcs ns f).map Dot.arcLine ++ ["\x7d"]) ++ "\n"

/-- The edge that stands for a pair as a record, for which its ends are looked up. -/
def edgeRecord? (s : Store) (link : Link) : Option EdgeRecord := do
  let e ← s.edges[link.edge]?
  let caller ← node? s e.caller
  let callee ← node? s e.callee
  return .ofCall caller.id callee.id e.call

/-- The document of a flow. -/
def ofSelection? (s : Store) (f : Flow) : Option Document := do
  let nodes ← f.nodes.mapM (node? s)
  let edges ← f.links.mapM (edgeRecord? s)
  return {
    nodes := (nodes.map NodeRecord.ofNode).mergeSort fun a b => (compare a.id b.id).isLE
    edges := edges.mergeSort Document.edgeLE }

/-- A flow written in a format. -/
def render? (s : Store) (f : Flow) (format : Format) (grouping : Grouping) : Option String :=
  match format with
  | .mermaid => renderMermaid? s f grouping
  | .dot => renderDot? s f grouping
  | .json => (ofSelection? s f).map Document.toText

end Access

end CallGraph
