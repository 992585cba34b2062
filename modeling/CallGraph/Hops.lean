import CallGraph.Loop

/-!
**Hop distances.**

How many hops lead from a set of roots to each node. Nodes are looked at in the order in which they
were come to, so each is come to for the first time by a shortest way.

* `Distances` — a distance for each node that has been come to;
* `Search` — a search in progress; `see` and `advance` are its steps;
* `search` — a whole search. It ends on every graph: a node that is put into the queue has been
  come to and is not put there again.
-/

namespace CallGraph

/-- A distance for each node, none for a node out of reach. -/
abbrev Distances := Array (Option Nat)

namespace Distances

/-- The distance of a node. -/
def get (d : Distances) (v : Nat) : Option Nat :=
  (d[v]?).join

/-- How many nodes are within reach. -/
def reached (d : Distances) : Nat :=
  d.toList.countP Option.isSome

/-- How many nodes have not been come to. -/
def unreached (d : Distances) : Nat :=
  d.toList.countP Option.isNone

/-- A node that gets a distance is one less without. -/
theorem unreached_set {d : Distances} {v k : Nat} (new : d[v]? = some none) :
    unreached (d.setIfInBounds v (some k)) + 1 = d.unreached := by
  obtain ⟨inRange, here⟩ := Array.getElem?_eq_some_iff.1 new
  have inList : v < d.toList.length := by simpa using inRange
  have without : d.toList[v] = none := by rwa [Array.getElem_toList]
  have some : 0 < d.toList.countP Option.isNone :=
    List.countP_pos_iff.2 ⟨none, without ▸ List.getElem_mem inList, rfl⟩
  rw [unreached, unreached, Array.toList_setIfInBounds, List.countP_set inList, without]
  simp only [Option.isNone_none, Option.isNone_some, if_true, Bool.false_eq_true, if_false]
  omega

end Distances

/-- A search in progress. -/
structure Search where
  /-- The distances of the nodes that it has come to. -/
  distances : Distances
  /-- The nodes that it still has to look at, with their distances, the next one first. -/
  queue : List (Nat × Nat)
  /-- The nodes from which it has gone on, the last one first. -/
  expanded : List Nat

namespace Search

/-- Comes to a node. A node that it has come to before is passed over, and so is one that there is
not. -/
def see (hops : Nat) (s : Search) (v : Nat) : Search :=
  if s.distances[v]? = some none then
    { s with
      distances := s.distances.setIfInBounds v (some hops)
      queue := s.queue ++ [(v, hops)] }
  else s

/-- A search among `n` nodes that has come to its roots. -/
def start (n : Nat) (roots : List Nat) : Search :=
  roots.foldl (see 0) ⟨Array.replicate n none, [], []⟩

/-- Looks at the next node, and goes on from there unless it lies at the limit. -/
def advance (next : Nat → List Nat) (limit : Option Nat) (s : Search) : Search :=
  match s.queue with
  | [] => s
  | (v, hops) :: rest =>
    if limit.all (hops < ·) then
      (next v).foldl (see (hops + 1)) { s with queue := rest, expanded := v :: s.expanded }
    else { s with queue := rest }

/-- How many nodes may still be looked at. -/
def ahead (s : Search) : Nat :=
  s.distances.unreached + s.queue.length

@[simp] theorem ahead_see (hops : Nat) (s : Search) (v : Nat) :
    (s.see hops v).ahead = s.ahead := by
  unfold see
  split
  · rename_i new
    have := Distances.unreached_set (k := hops) new
    simp only [ahead, List.length_append, List.length_singleton]
    omega
  · rfl

theorem ahead_foldl_see (hops : Nat) (vs : List Nat) (s : Search) :
    (vs.foldl (see hops) s).ahead = s.ahead := by
  induction vs generalizing s with
  | nil => rfl
  | cons v rest hyp => rw [List.foldl_cons, hyp, ahead_see]

/-- A step looks at one node, and puts back only nodes that nobody had come to. -/
theorem ahead_advance {next : Nat → List Nat} {limit : Option Nat} {s : Search}
    (more : s.queue ≠ []) : (s.advance next limit).ahead + 1 = s.ahead := by
  obtain ⟨⟨v, hops⟩, rest, waiting⟩ := List.exists_cons_of_ne_nil more
  unfold advance
  rw [waiting]
  dsimp only
  split
  · rw [ahead_foldl_see]
    simp [ahead, waiting, Nat.add_assoc]
  · simp [ahead, waiting, Nat.add_assoc]

/-- A search goes on until its queue is empty. -/
def loop (next : Nat → List Nat) (limit : Option Nat) : Loop Search where
  finished s := s.queue.isEmpty
  step := advance next limit
  rank := ahead
  step_lt s going := by
    have more : s.queue ≠ [] := fun empty => by simp [empty] at going
    have : (s.advance next limit).ahead + 1 = s.ahead := ahead_advance more
    omega

end Search

/-- Searches among `n` nodes from the roots on. It does not go on from nodes at the limit. -/
def search (n : Nat) (next : Nat → List Nat) (limit : Option Nat) (roots : List Nat) : Search :=
  (Search.loop next limit).run (Search.start n roots)

end CallGraph
