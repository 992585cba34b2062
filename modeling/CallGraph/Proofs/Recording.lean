import CallGraph.Proofs.Expansions
import CallGraph.Source.Facts
import Mathlib.Data.List.Forall2

/-!
**Every call in a body is recorded once.**

Code is a tree. A call in it stands at a place, which is the way to it from the outermost code; the
calls that are recorded are those that stand somewhere, in the order of their places.

* `Code.parts`, `Code.at?` — the parts of code, and what stands at a place;
* `Code.Records` — what a piece of code records for itself, with the rank of each entry;
* `Mark`, `Mark.Before` — a place with a rank, and the order of visiting;
* `Listed` — a list that has one entry for each key, in the order of the keys;
* `Code.Asks`, `Code.listed_sites` — all entries that code asks for are in its sites;
* `define_records_calls` — so it is for the body of every function, and for what is read of a macro.
-/

namespace CallGraph.Source

/-! ### Lists by keys -/

/-- **A list with one entry for each key**, in the order of the keys: `asks k s` says that the entry
for `k` is `s`. -/
def Listed {κ σ : Type} (before : κ → κ → Prop) (asks : κ → σ → Prop) (entries : List σ) : Prop :=
  ∃ keys : List κ, keys.Pairwise before ∧ List.Forall₂ asks keys entries ∧
    ∀ k s, asks k s → k ∈ keys

section

variable {κ ι σ : Type} {before : κ → κ → Prop} {asks others : κ → σ → Prop} {entries more : List σ}

/-- A key that is listed has an entry. -/
theorem exists_of_mem_keys {keys : List κ} (each : List.Forall₂ asks keys entries) {k : κ}
    (here : k ∈ keys) : ∃ s, asks k s := by
  induction each with
  | nil => exact absurd here List.not_mem_nil
  | cons first _ hyp =>
    rcases List.mem_cons.1 here with rfl | later
    · exact ⟨_, first⟩
    · exact hyp later

theorem listed_nil (none : ∀ k s, ¬asks k s) : Listed before asks [] :=
  ⟨[], .nil, .nil, fun k s here => absurd here (none k s)⟩

theorem Listed.congr (listed : Listed before asks entries) (same : ∀ k s, asks k s ↔ others k s) :
    Listed before others entries := by
  have equal : asks = others := funext fun k => funext fun s => propext (same k s)
  exact equal ▸ listed

/-- At most one entry, with the same key whichever it is. -/
theorem listed_of_length_le_one (k : κ) (single : entries.length ≤ 1) :
    Listed before (fun l s => l = k ∧ s ∈ entries) entries := by
  match entries with
  | [] => exact listed_nil fun _ _ ⟨_, here⟩ => absurd here List.not_mem_nil
  | [s] =>
    refine ⟨[k], List.pairwise_singleton _ k, ?_, fun l _ here => ?_⟩
    · exact .cons ⟨rfl, List.mem_singleton_self s⟩ .nil
    · exact List.mem_singleton.2 here.1

theorem listed_singleton (k : κ) (s : σ) : Listed before (fun l t => l = k ∧ t = s) [s] :=
  (listed_of_length_le_one k (Nat.le_refl [s].length)).congr fun _ _ => by rw [List.mem_singleton]

/-- Two lists, one after the other. -/
theorem Listed.append (first : Listed before asks entries) (second : Listed before others more)
    (apart : ∀ k s l t, asks k s → others l t → before k l) :
    Listed before (fun k s => asks k s ∨ others k s) (entries ++ more) := by
  obtain ⟨keys, ordered, each, all⟩ := first
  obtain ⟨keys', ordered', each', all'⟩ := second
  refine ⟨keys ++ keys', List.pairwise_append.2 ⟨ordered, ordered', ?_⟩, ?_, ?_⟩
  · intro k here l there
    obtain ⟨s, own⟩ := exists_of_mem_keys each here
    obtain ⟨t, other⟩ := exists_of_mem_keys each' there
    exact apart k s l t own other
  · exact List.rel_append (each.imp fun _ _ => Or.inl) (each'.imp fun _ _ => Or.inr)
  · rintro k s (own | other)
    · exact List.mem_append_left _ (all k s own)
    · exact List.mem_append_right _ (all' k s other)

/-- Other keys for the same entries. -/
theorem Listed.map (listed : Listed before asks entries) (after : ι → ι → Prop) (rename : κ → ι)
    (mono : ∀ k l, before k l → after (rename k) (rename l)) :
    Listed after (fun i s => ∃ k, i = rename k ∧ asks k s) entries := by
  obtain ⟨keys, ordered, each, all⟩ := listed
  refine ⟨keys.map rename, ordered.map rename fun k l => mono k l, ?_, ?_⟩
  · exact List.forall₂_map_left_iff.2 (each.imp fun k s here => ⟨k, rfl, here⟩)
  · rintro i s ⟨k, rfl, here⟩
    exact List.mem_map_of_mem (all k s here)

theorem lex_succ (before : κ → κ → Prop) (k l : Nat × κ) (less : Prod.Lex (· < ·) before k l) :
    Prod.Lex (· < ·) before (k.1 + 1, k.2) (l.1 + 1, l.2) := by
  cases less with
  | left _ _ less => exact Prod.Lex.left _ _ (Nat.succ_lt_succ less)
  | right _ less => exact Prod.Lex.right _ less

/-- **The lists of some parts, one after the other**: the keys are those of the parts, with the
number of the part in front. -/
theorem listed_flatMap {α : Type} {asks : α → κ → σ → Prop} {entries : α → List σ} {xs : List α}
    (each : ∀ x ∈ xs, Listed before (asks x) (entries x)) :
    Listed (Prod.Lex (· < ·) before)
      (fun (k : Nat × κ) s => ∃ x, xs[k.1]? = some x ∧ asks x k.2 s) (xs.flatMap entries) := by
  induction xs with
  | nil => exact listed_nil fun _ _ ⟨_, here, _⟩ => by cases here
  | cons x rest hyp =>
    obtain ⟨own, later⟩ := List.forall_mem_cons.1 each
    have front := own.map (Prod.Lex (· < ·) before) (fun k => (0, k)) fun k l less =>
      Prod.Lex.right 0 less
    have back := (hyp later).map (Prod.Lex (· < ·) before) (fun k => (k.1 + 1, k.2))
      (lex_succ before)
    refine (front.append back ?_).congr fun k s => ?_
    · rintro k s l t ⟨_, rfl, _⟩ ⟨_, rfl, _⟩
      exact Prod.Lex.left _ _ (Nat.succ_pos _)
    · obtain ⟨i, k⟩ := k
      constructor
      · rintro (⟨k, same, here⟩ | ⟨⟨j, k⟩, same, here⟩)
        · cases same
          exact ⟨x, rfl, here⟩
        · cases same
          exact here
      · rintro ⟨y, found, here⟩
        cases i with
        | zero =>
          cases found
          exact Or.inl ⟨k, rfl, here⟩
        | succ i => exact Or.inr ⟨(i, k), rfl, y, found, here⟩

end

/-! ### Places in code -/

namespace Code

/-- **The parts of code**, in the order in which they are visited. A definition inside a body is no
part of the code around it. -/
def parts : Code → List Code
  | .path _ parts _ | .record _ parts | .other parts => parts
  | .call attributes callee arguments => attributes ++ callee :: arguments
  | .method attributes receiver _ _ generics arguments =>
    attributes ++ receiver :: (generics ++ arguments)
  | .expansion _ _ arguments => arguments
  | .item _ => []

/-- **The code at a place**: the numbers of the parts that lead to it, from the outside in. -/
def at? (c : Code) : List Nat → Option Code
  | [] => some c
  | i :: place => c.parts[i]?.bind fun part => part.at? place

/-- **What a piece of code records for itself**, apart from its parts: a call of a plain path, a
method call and a macro come first, with rank 0, then the plain paths that it hands over, each with
the rank of the argument. -/
inductive Records : Code → Nat → Site → Prop
  | call {attributes parts arguments : List Code} {name : PathName} {line : Nat}
      (plain : name.qualified = false) :
      Records (.call attributes (.path name parts line) arguments) 0 ⟨.path name.texts, line⟩
  | method {attributes generics arguments : List Code} {receiver : Code} {name : Name} {line : Nat} :
      Records (.method attributes receiver name line generics arguments) 0
        ⟨.method name.text receiver.isSelf, line⟩
  | expansion {names : List Name} {line : Nat} {arguments : List Code} :
      Records (.expansion names line arguments) 0 ⟨.expansion (names.map (·.text)), line⟩
  | handedToCall {attributes parts arguments : List Code} {callee : Code} {name : PathName}
      {k line : Nat} (given : arguments[k]? = some (.path name parts line))
      (plain : name.qualified = false) :
      Records (.call attributes callee arguments) (k + 1) ⟨.argument name.texts, line⟩
  | handedToMethod {attributes parts generics arguments : List Code} {receiver : Code} {name : Name}
      {path : PathName} {k line place : Nat} (given : arguments[k]? = some (.path path parts place))
      (plain : path.qualified = false) :
      Records (.method attributes receiver name line generics arguments) (k + 1)
        ⟨.argument path.texts, place⟩

end Code

/-- Where an entry stands: at a place in code, and there at some rank. -/
structure Mark where
  place : List Nat
  rank : Nat
  deriving DecidableEq, Repr

/-- **The order of visiting**: what is outside comes before what is inside, an earlier part before
a later one, and at one place the ranks decide. -/
def Mark.Before (a b : Mark) : Prop :=
  a.place < b.place ∨ a.place = b.place ∧ a.rank < b.rank

/-- **The entry that code asks for at a mark.** -/
def Code.Asks (c : Code) (m : Mark) (s : Site) : Prop :=
  ∃ d, c.at? m.place = some d ∧ d.Records m.rank s

/-! ### The sites of code -/

namespace Code

/-- An attribute holds code of its own, and so do the other parts. -/
theorem sizeOf_lt_of_mem_parts {c part : Code} (here : part ∈ c.parts) :
    sizeOf part < sizeOf c := by
  cases c <;> simp only [parts, List.mem_append, List.mem_cons, List.not_mem_nil] at here
  case path name parts line | record name parts | other parts =>
    have := List.sizeOf_lt_of_mem here
    simp only [path.sizeOf_spec, record.sizeOf_spec, other.sizeOf_spec]
    omega
  case call attributes callee arguments =>
    simp only [call.sizeOf_spec]
    rcases here with here | rfl | here
    · have := List.sizeOf_lt_of_mem here
      omega
    · omega
    · have := List.sizeOf_lt_of_mem here
      omega
  case method attributes receiver name line generics arguments =>
    simp only [method.sizeOf_spec]
    rcases here with here | rfl | here | here
    · have := List.sizeOf_lt_of_mem here
      omega
    · omega
    · have := List.sizeOf_lt_of_mem here
      omega
    · have := List.sizeOf_lt_of_mem here
      omega
  case expansion names line arguments =>
    have := List.sizeOf_lt_of_mem here
    simp only [expansion.sizeOf_spec]
    omega

/-- Induction on code by its parts. -/
theorem parts_recursion {P : Code → Prop} (step : ∀ c : Code, (∀ part ∈ c.parts, P part) → P c)
    (c : Code) : P c :=
  step c fun part _ => parts_recursion step part
termination_by sizeOf c
decreasing_by exact sizeOf_lt_of_mem_parts ‹_›

/-- The entries that a piece of code records for itself. -/
def ownSites : Code → List Site
  | .call _ callee arguments => callee.called ++ arguments.flatMap handedOver
  | .method _ receiver name line _ arguments =>
    ⟨.method name.text receiver.isSelf, line⟩ :: arguments.flatMap handedOver
  | .expansion names line _ => [⟨.expansion (names.map (·.text)), line⟩]
  | .path _ _ _ | .record _ _ | .item _ | .other _ => []

theorem listSites_eq (cs : List Code) : listSites cs = cs.flatMap sites := by
  induction cs with
  | nil => rw [listSites, List.flatMap_nil]
  | cons c rest hyp => rw [listSites, hyp, List.flatMap_cons]

/-- **The sites of code are its own, then those of its parts.** -/
theorem sites_eq (c : Code) : c.sites = c.ownSites ++ c.parts.flatMap sites := by
  cases c <;> simp [sites, ownSites, parts, listSites_eq]

/-- Code that is called is recorded once. -/
theorem mem_called_iff {c : Code} {s : Site} : s ∈ c.called ↔
    ∃ name parts line, c = .path name parts line ∧ name.qualified = false ∧
      s = ⟨.path name.texts, line⟩ := by
  cases c <;> simp [called]

theorem mem_handedOver_iff {c : Code} {s : Site} : s ∈ c.handedOver ↔
    ∃ name parts line, c = .path name parts line ∧ name.qualified = false ∧
      s = ⟨.argument name.texts, line⟩ := by
  cases c <;> simp [handedOver]

theorem length_called_le (c : Code) : c.called.length ≤ 1 := by
  unfold called
  split
  · split <;> simp
  · simp

theorem length_handedOver_le (c : Code) : c.handedOver.length ≤ 1 := by
  unfold handedOver
  split
  · split <;> simp
  · simp

theorem lt_of_lex (k l : Nat × Unit) (less : Prod.Lex (· < ·) (fun _ _ : Unit => False) k l) :
    k.1 + 1 < l.1 + 1 := by
  cases less with
  | left _ _ less => exact Nat.succ_lt_succ less
  | right _ never => exact never.elim

/-- The paths that are handed over, by the numbers of the arguments. -/
theorem listed_handedOver (arguments : List Code) :
    Listed (· < ·) (fun k s => ∃ i, k = i + 1 ∧ ∃ a, arguments[i]? = some a ∧ s ∈ a.handedOver)
      (arguments.flatMap handedOver) := by
  have each : ∀ a ∈ arguments, Listed (fun _ _ : Unit => False)
      (fun l s => l = () ∧ s ∈ a.handedOver) a.handedOver :=
    fun a _ => listed_of_length_le_one () (length_handedOver_le a)
  have later := (listed_flatMap each).map (· < ·) (fun k => k.1 + 1) lt_of_lex
  refine later.congr fun k s => ?_
  constructor
  · rintro ⟨⟨i, _⟩, rfl, a, found, _, here⟩
    exact ⟨i, rfl, a, found, here⟩
  · rintro ⟨i, rfl, a, found, here⟩
    exact ⟨(i, ()), rfl, a, found, rfl, here⟩

/-- What code records for itself is listed by ranks. -/
theorem listed_ownSites (c : Code) : Listed (· < ·) c.Records c.ownSites := by
  cases c with
  | path _ _ _ | record _ _ | item _ | other _ => exact listed_nil fun _ _ => nofun
  | expansion names line arguments =>
    refine (listed_singleton 0 _).congr fun k s => ?_
    constructor
    · rintro ⟨rfl, rfl⟩
      exact .expansion
    · rintro ⟨⟩
      exact ⟨rfl, rfl⟩
  | call attributes callee arguments =>
    refine ((listed_of_length_le_one 0 (length_called_le callee)).append
      (listed_handedOver arguments) ?_).congr fun k s => ?_
    · rintro _ _ _ _ ⟨rfl, _⟩ ⟨i, rfl, _⟩
      exact Nat.succ_pos i
    · constructor
      · rintro (⟨rfl, here⟩ | ⟨i, rfl, a, found, here⟩)
        · obtain ⟨name, parts, line, rfl, plain, rfl⟩ := mem_called_iff.1 here
          exact .call plain
        · obtain ⟨name, parts, line, rfl, plain, rfl⟩ := mem_handedOver_iff.1 here
          exact .handedToCall found plain
      · intro records
        cases records with
        | call plain => exact Or.inl ⟨rfl, mem_called_iff.2 ⟨_, _, _, rfl, plain, rfl⟩⟩
        | handedToCall found plain =>
          exact Or.inr ⟨_, rfl, _, found, mem_handedOver_iff.2 ⟨_, _, _, rfl, plain, rfl⟩⟩
  | method attributes receiver name line generics arguments =>
    refine ((listed_singleton 0 _).append (listed_handedOver arguments) ?_).congr fun k s => ?_
    · rintro _ _ _ _ ⟨rfl, _⟩ ⟨i, rfl, _⟩
      exact Nat.succ_pos i
    · constructor
      · rintro (⟨rfl, rfl⟩ | ⟨i, rfl, a, found, here⟩)
        · exact .method
        · obtain ⟨name, parts, line, rfl, plain, rfl⟩ := mem_handedOver_iff.1 here
          exact .handedToMethod found plain
      · intro records
        cases records with
        | method => exact Or.inl ⟨rfl, rfl⟩
        | handedToMethod found plain =>
          exact Or.inr ⟨_, rfl, _, found, mem_handedOver_iff.2 ⟨_, _, _, rfl, plain, rfl⟩⟩

/-- An entry is asked for by the code itself, or by one of its parts. -/
theorem asks_iff {c : Code} {m : Mark} {s : Site} : c.Asks m s ↔
    (∃ k, m = ⟨[], k⟩ ∧ c.Records k s) ∨
      ∃ k : Nat × Mark, m = ⟨k.1 :: k.2.place, k.2.rank⟩ ∧
        ∃ part, c.parts[k.1]? = some part ∧ part.Asks k.2 s := by
  obtain ⟨place, rank⟩ := m
  cases place with
  | nil =>
    constructor
    · rintro ⟨d, found, records⟩
      cases found
      exact Or.inl ⟨rank, rfl, records⟩
    · rintro (⟨k, same, records⟩ | ⟨_, same, _⟩)
      · cases same
        exact ⟨c, rfl, records⟩
      · cases same
  | cons i place =>
    constructor
    · rintro ⟨d, found, records⟩
      obtain ⟨part, listed, found⟩ := Option.bind_eq_some_iff.1 found
      exact Or.inr ⟨(i, ⟨place, rank⟩), rfl, part, listed, d, found, records⟩
    · rintro (⟨k, same, _⟩ | ⟨⟨j, m⟩, same, part, listed, d, found, records⟩)
      · cases same
      · cases same
        exact ⟨d, Option.bind_eq_some_iff.2 ⟨part, listed, found⟩, records⟩

/-- Entries of the parts come in the order of the parts. -/
theorem before_of_lex (k l : Nat × Mark) (less : Prod.Lex (· < ·) Mark.Before k l) :
    Mark.Before ⟨k.1 :: k.2.place, k.2.rank⟩ ⟨l.1 :: l.2.place, l.2.rank⟩ := by
  cases less with
  | left _ _ less => exact Or.inl (List.Lex.rel less)
  | right i less =>
    rcases less with less | ⟨same, less⟩
    · exact Or.inl (List.Lex.cons less)
    · exact Or.inr ⟨congrArg (i :: ·) same, less⟩

/-- **The sites of code are the entries that it asks for**, each once and in the order of
visiting. -/
theorem listed_sites (c : Code) : Listed Mark.Before c.Asks c.sites := by
  induction c using parts_recursion with
  | step c hyp =>
    have own := c.listed_ownSites.map Mark.Before (fun k => ⟨[], k⟩) fun k l less =>
      Or.inr ⟨rfl, less⟩
    have inside := (listed_flatMap hyp).map Mark.Before (fun k => ⟨k.1 :: k.2.place, k.2.rank⟩)
      before_of_lex
    rw [sites_eq]
    refine (own.append inside ?_).congr fun m s => asks_iff.symm
    rintro _ _ _ _ ⟨k, rfl, _⟩ ⟨⟨i, m⟩, rfl, _⟩
    exact Or.inl List.Lex.nil

/-- A piece of code records one entry at a rank, if any. -/
theorem Records.unique {c : Code} {k : Nat} {s t : Site} (first : c.Records k s)
    (second : c.Records k t) : s = t := by
  cases first with
  | call _ =>
    cases second with
    | call _ => rfl
  | method =>
    cases second with
    | method => rfl
  | expansion =>
    cases second with
    | expansion => rfl
  | handedToCall given _ =>
    cases second with
    | handedToCall given' _ =>
      cases given.symm.trans given'
      rfl
  | handedToMethod given _ =>
    cases second with
    | handedToMethod given' _ =>
      cases given.symm.trans given'
      rfl

/-- Code asks for one entry at a mark, if for any. -/
theorem Asks.unique {c : Code} {m : Mark} {s t : Site} (first : c.Asks m s) (second : c.Asks m t) :
    s = t := by
  obtain ⟨d, found, records⟩ := first
  obtain ⟨d', found', records'⟩ := second
  obtain rfl : d = d' := Option.some.inj (found.symm.trans found')
  exact records.unique records'

end Code

/-- The keys of a list and its entries stand at the same numbers. -/
theorem Listed.exists_keys {κ σ : Type} {before : κ → κ → Prop} {asks : κ → σ → Prop}
    {entries : List σ} (listed : Listed before asks entries)
    (unique : ∀ k s t, asks k s → asks k t → s = t) :
    ∃ keys : List κ, keys.length = entries.length ∧ keys.Pairwise before ∧
      ∀ k s, asks k s ↔ ∃ i : Nat, keys[i]? = some k ∧ entries[i]? = some s := by
  obtain ⟨keys, ordered, each, all⟩ := listed
  refine ⟨keys, each.length_eq, ordered, fun k s => ⟨fun here => ?_, ?_⟩⟩
  · obtain ⟨i, inRange, found⟩ := List.mem_iff_getElem.1 (all k s here)
    have inEntries : i < entries.length := each.length_eq ▸ inRange
    have there : asks keys[i] entries[i] := each.get inRange inEntries
    rw [found] at there
    exact ⟨i, List.getElem?_eq_some_iff.2 ⟨inRange, found⟩,
      List.getElem?_eq_some_iff.2 ⟨inEntries, unique k _ _ there here⟩⟩
  · rintro ⟨i, found, given⟩
    obtain ⟨inRange, rfl⟩ := List.getElem?_eq_some_iff.1 found
    obtain ⟨inEntries, rfl⟩ := List.getElem?_eq_some_iff.1 given
    exact each.get inRange inEntries

/-- **Every call in a body is recorded exactly once.** The sites of a definition are numbered as the
marks of its body at which code asks for an entry, and these are in the order of visiting: to each
call of a plain path, each method call, each macro and each plain path that is handed over, at
whatever place of the body, belongs one site, and there are no others. The parts of a macro are the
expressions in its brackets, if what stands there is a list of such, and else there are none: so a
macro is read by every grammar. -/
theorem define_records_calls (o : Origin) (modulePath : String) (owner : Option Owner)
    (exported : Bool) (f : Function Code) :
    (∃ marks : List Mark, marks.length = (define o modulePath owner exported f).sites.length ∧
      marks.Pairwise Mark.Before ∧
      ∀ m s, (Code.other f.body).Asks m s ↔
        ∃ i : Nat, marks[i]? = some m ∧
          (define o modulePath owner exported f).sites[i]? = some s) ∧
      ∀ (g : Grammar) p trees d c rest,
        g.expansion p trees = some ((d, c), rest) ↔ g.Expands p trees d c rest := by
  have sites : (define o modulePath owner exported f).sites = (Code.other f.body).sites := by
    rw [Code.sites]
    rfl
  rw [sites]
  exact ⟨(Code.other f.body).listed_sites.exists_keys fun m s t => Code.Asks.unique,
    fun _ _ _ _ _ _ => Grammar.expansion_eq_some_iff⟩

end CallGraph.Source
