/-!
**Loops.**

A loop repeats a step until nothing is left to do. It carries a number that each of its steps
lowers, so it ends, whatever state it starts in.

* `Loop.run` — the state in which a loop ends (`finished_run`);
* `Loop.run_keeps`, `Loop.after_keeps` — what every step keeps holds at the end, and on the way;
* `Loop.run_eq_after` — a loop ends after at most as many steps as the number says.
-/

namespace CallGraph

/-- A step that is repeated until nothing is left to do. -/
structure Loop (State : Type) where
  finished : State → Bool
  step : State → State
  /-- How many steps may still come. -/
  rank : State → Nat
  step_lt : ∀ s, finished s = false → rank (step s) < rank s

namespace Loop

variable {State : Type} (l : Loop State)

/-- The state in which a loop ends. -/
def run (s : State) : State :=
  if _ : l.finished s = true then s else run (l.step s)
termination_by l.rank s
decreasing_by
  rename_i going
  exact l.step_lt s (Bool.eq_false_iff.2 going)

/-- The state after a number of steps; a loop that has ended stays as it is. -/
def after : Nat → State → State
  | 0, s => s
  | k + 1, s => if l.finished s then s else after k (l.step s)

theorem run_of_finished {s : State} (done : l.finished s = true) : l.run s = s := by
  rw [run, dif_pos done]

theorem run_of_going {s : State} (going : l.finished s = false) : l.run s = l.run (l.step s) := by
  rw [run, dif_neg (Bool.eq_false_iff.1 going)]

/-- **What every step keeps holds at the end.** -/
theorem run_keeps {holds : State → Prop}
    (kept : ∀ s, l.finished s = false → holds s → holds (l.step s)) {s : State}
    (here : holds s) : holds (l.run s) := by
  induction s using Loop.run.induct l with
  | case1 s done => rwa [l.run_of_finished done]
  | case2 s going hyp =>
    have going := Bool.eq_false_iff.2 going
    rw [l.run_of_going going]
    exact hyp (kept s going here)

/-- What every step keeps holds after any number of steps. -/
theorem after_keeps {holds : State → Prop}
    (kept : ∀ s, l.finished s = false → holds s → holds (l.step s)) (k : Nat) {s : State}
    (here : holds s) : holds (l.after k s) := by
  induction k generalizing s with
  | zero => exact here
  | succ k hyp =>
    rw [after]
    split
    · exact here
    · rename_i going
      exact hyp (kept s (Bool.eq_false_iff.2 going) here)

/-- Nothing is left to do at the end. -/
theorem finished_run (s : State) : l.finished (l.run s) = true := by
  induction s using Loop.run.induct l with
  | case1 s done => rwa [l.run_of_finished done]
  | case2 s going hyp => rwa [l.run_of_going (Bool.eq_false_iff.2 going)]

/-- **The end is reached after at most as many steps as may still come.** -/
theorem run_eq_after {k : Nat} {s : State} (enough : l.rank s ≤ k) : l.run s = l.after k s := by
  induction k generalizing s with
  | zero =>
    have done : l.finished s = true := by
      by_cases going : l.finished s = false
      · have := l.step_lt s going
        omega
      · exact Bool.of_not_eq_false going
    rw [l.run_of_finished done, after]
  | succ k hyp =>
    by_cases going : l.finished s = false
    · have lower := l.step_lt s going
      rw [l.run_of_going going, after, if_neg (Bool.eq_false_iff.1 going)]
      exact hyp (by omega)
    · have done := Bool.of_not_eq_false going
      rw [l.run_of_finished done, after, if_pos done]

theorem finished_after {k : Nat} {s : State} (enough : l.rank s ≤ k) :
    l.finished (l.after k s) = true := by
  rw [← l.run_eq_after enough]
  exact l.finished_run s

end Loop

end CallGraph
