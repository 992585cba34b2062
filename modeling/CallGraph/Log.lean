import CallGraph.Verdict
import CallGraph.Vocabulary

/-!
**What a run reports.**

Stages report what they did and what they had to leave out. A report is a value: `Logged` pairs a
result with the notes made on the way to it, in order, so a note is part of what a function returns.
-/

namespace CallGraph

/-- Something worth reporting. -/
inductive Note where
  /-- A node was given twice; the first definition stays. -/
  | duplicateNode (id : String)
  /-- A call was left out because an endpoint is unknown. -/
  | unknownEndpoint (caller callee : String)
  /-- A root was left out because no node has its id. -/
  | unknownRoot (id : String)
  /-- The focus names no module of the graph. -/
  | unknownFocus (text : String)
  /-- A graph was built. -/
  | built (algorithm : Algorithm) (nodes edges : Nat)
  /-- Depths were measured. -/
  | measured (bound reached nodes roots : Nat)
  /-- Calls were selected from the whole graph. -/
  | selected (edges nodes : Nat) (dropped : List (DropReason × Nat)) (beyondDepth : Nat)
  /-- A walk from a symbol ended. -/
  | walked (direction : Direction) (start : String) (nodes edges : Nat)
  deriving DecidableEq

namespace Note

/-- Whether a note says that something was left out, rather than what a stage did. -/
def isWarning : Note → Bool
  | duplicateNode _ | unknownEndpoint _ _ | unknownRoot _ | unknownFocus _ => true
  | built _ _ _ | measured _ _ _ _ | selected _ _ _ _ | walked _ _ _ _ => false

/-- The level a note is logged at. Stages are more important in a query that asks for it. -/
def level (debug : Bool) (n : Note) : String :=
  if n.isWarning then "WARN" else if debug then "INFO" else "DEBUG"

/-- Counts by reason, as a note shows them. -/
def showCounts (counts : List (DropReason × Nat)) : String :=
  "\x7b" ++ ", ".intercalate (counts.map fun (reason, n) => reason.name ++ ": " ++ n.repr) ++ "\x7d"

/-- The wording of a note. -/
def text : Note → String
  | duplicateNode id => "duplicate node id " ++ id ++ ", keeping the first definition"
  | unknownEndpoint caller callee =>
    "skipping edge " ++ caller ++ " -> " ++ callee ++ ": unknown endpoint"
  | unknownRoot id => "skipping unknown root " ++ id
  | unknownFocus text => "focus module " ++ text ++ " not found in graph, ignoring focus"
  | built algorithm nodes edges =>
    algorithm.name ++ " builder produced " ++ nodes.repr ++ " nodes, " ++ edges.repr ++ " edges"
  | measured bound reached nodes roots =>
    "depth bound " ++ bound.repr ++ ": " ++ reached.repr ++ " of " ++ nodes.repr ++
      " nodes within reach of " ++ roots.repr ++ " roots"
  | selected edges nodes dropped beyondDepth =>
    "selected " ++ edges.repr ++ " edges over " ++ nodes.repr ++ " nodes (dropped " ++
      showCounts dropped ++ ", beyond depth " ++ beyondDepth.repr ++ ")"
  | walked direction start nodes edges =>
    direction.name ++ " traversal from " ++ start ++ ": " ++ nodes.repr ++ " nodes, " ++
      edges.repr ++ " edges"

end Note

/-- A result together with the notes made on the way to it. -/
structure Logged (α : Type) where
  value : α
  notes : List Note

namespace Logged

/-- Makes a note. -/
def note (n : Note) : Logged Unit :=
  ⟨(), [n]⟩

instance : Monad Logged where
  pure a := ⟨a, []⟩
  bind x f := ⟨(f x.value).value, x.notes ++ (f x.value).notes⟩

@[simp] theorem value_pure {α : Type} (a : α) : (pure a : Logged α).value = a := rfl

@[simp] theorem notes_pure {α : Type} (a : α) : (pure a : Logged α).notes = [] := rfl

@[simp] theorem value_bind {α β : Type} (x : Logged α) (f : α → Logged β) :
    (x >>= f).value = (f x.value).value := rfl

@[simp] theorem notes_bind {α β : Type} (x : Logged α) (f : α → Logged β) :
    (x >>= f).notes = x.notes ++ (f x.value).notes := rfl

instance : LawfulMonad Logged :=
  LawfulMonad.mk' Logged (fun x => by cases x; simp [Functor.map])
    (fun _ _ => by simp [pure, bind]) (fun x f g => by simp [bind, List.append_assoc])

/-! ### Stages that may fail -/

section

variable {ε ε' α β : Type}

@[simp] theorem value_run_pure (a : α) : (pure a : ExceptT ε Logged α).run.value = .ok a := rfl

@[simp] theorem value_run_throw (e : ε) :
    (throw e : ExceptT ε Logged α).run.value = .error e := rfl

@[simp] theorem value_run_lift (x : Logged α) :
    (liftM x : ExceptT ε Logged α).run.value = .ok x.value := rfl

/-- A stage goes on from the result of the one before. -/
@[simp] theorem value_run_bind (x : ExceptT ε Logged α) (f : α → ExceptT ε Logged β) :
    (x >>= f).run.value = x.run.value.bind fun a => (f a).run.value := by
  show (ExceptT.bindCont f x.run.value).value = _
  cases x.run.value <;> rfl

@[simp] theorem value_run_map (f : α → β) (x : ExceptT ε Logged α) :
    (f <$> x).run.value = x.run.value.map f := by
  rw [map_eq_pure_bind, value_run_bind]
  rfl

@[simp] theorem value_run_adapt (f : ε → ε') (x : ExceptT ε Logged α) :
    (ExceptT.adapt f x).run.value = x.run.value.mapError f := rfl

end

end Logged

/-- Two checks in a row have a result if both have. -/
theorem exists_of_bind_eq_ok {ε α β : Type} {x : Except ε α} {f : α → Except ε β} {b : β}
    (value : x.bind f = .ok b) : ∃ a, x = .ok a ∧ f a = .ok b := by
  cases x with
  | error e => cases value
  | ok a => exact ⟨a, rfl, value⟩

theorem exists_of_map_eq_ok {ε α β : Type} {x : Except ε α} {f : α → β} {b : β}
    (value : x.map f = .ok b) : ∃ a, x = .ok a ∧ f a = b := by
  cases x with
  | error e => cases value
  | ok a => exact ⟨a, rfl, Except.ok.inj value⟩

end CallGraph
