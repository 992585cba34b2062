import CallGraph.Proofs.Answer

/-!
**How a query ends.**

A query can fail for four reasons, and they are looked for in a fixed order: the request makes no
sense, no graph can be built, its symbol names no node, it is given up. The last one needs a node to
start from. A query for which none of them holds has an answer, the one that it would have if it
could not be given up.

* `Symbol.Names`, `Symbol.resolve_cases` — a reference is resolved exactly if it names a node;
* `tripped?_effectiveInterrupt` — whose time counts while a request runs;
* `Query.Expands` — there is a node to start from, `value_select_of_tripped`,
  `value_select_of_quiet`, `value_select_of_idle` — the selection in the three cases that are left;
* `Query.Fails`, `run_ends` — when a query fails, and with which words;
* `run_interrupted_iff`, `run_outlives_caller` — a request that brings its own time is not held to
  that of its caller.
-/

namespace CallGraph

/-! ### Symbols -/

namespace Symbol

variable {g : Graph} {reference : String}

/-- **A reference names a node** if it fits one by some rule. -/
def Names (g : Graph) (reference : String) : Prop :=
  ∃ n ∈ g.nodes, ∃ rule : Rule, rule.fits n reference = true

theorem Rule.mem_all (rule : Rule) : rule ∈ all := by
  cases rule <;> decide

theorem lt_of_byRule {rule : Rule} {v : Nat} (found : byRule g reference rule = some v) :
    v < g.nodes.size :=
  (Array.findIdx?_eq_some_iff_getElem.1 found).1

theorem exists_byRule_iff : (∃ rule ∈ Rule.all, (byRule g reference rule).isSome = true) ↔
    Names g reference := by
  unfold byRule
  simp only [Array.findIdx?_isSome, Array.any_eq_true', Rule.mem_all, true_and]
  exact ⟨fun ⟨rule, n, here, fits⟩ => ⟨n, here, rule, fits⟩,
    fun ⟨n, here, rule, fits⟩ => ⟨rule, n, here, fits⟩⟩

/-- **A reference without blanks around it is resolved exactly if it names a node.** -/
theorem resolve_cases (clean : Text.trim reference = reference) (nonempty : reference ≠ "") :
    (Names g reference ∧ ∃ v < g.nodes.size, resolve g reference = .ok v) ∨
      (¬ Names g reference ∧ resolve g reference = .error reference) := by
  rw [← exists_byRule_iff, ← List.findSome?_isSome_iff]
  unfold resolve
  simp only [clean, if_neg nonempty]
  cases found : Rule.all.findSome? (byRule g reference) with
  | none => exact Or.inr ⟨by simp, rfl⟩
  | some v =>
    obtain ⟨rule, _, here⟩ := List.exists_of_findSome?_eq_some found
    exact Or.inl ⟨rfl, v, lt_of_byRule here, rfl⟩

end Symbol

theorem clean_of_cleanOption {value : Option String} {text : String}
    (cleaned : cleanOption value = some text) : Text.trim text = text ∧ text ≠ "" := by
  obtain ⟨trimmed, nonempty⟩ := Option.filter_eq_some_iff.1 cleaned
  obtain ⟨s, _, rfl⟩ := Option.map_eq_some_iff.1 trimmed
  exact ⟨Text.trim_trim s, of_decide_eq_true nonempty⟩

/-! ### Time -/

theorem Request.validate_withTimeout (request : Request) (limit : Option Nat) :
    { request with timeoutMs := limit }.validate =
      request.validate.map fun plan => { plan with timeoutMs := limit } := by
  unfold validate depthBound filterConfig
  by_cases none : cleanList request.moduleArgs = []
  · simp only [if_pos none]
    rfl
  simp only [if_neg none]
  cases orUnknown .algorithm request.algo (Algorithm.parse? request.algo) with
  | error e => rfl
  | ok algorithm =>
  cases orUnknown .direction request.direction (Direction.parse? request.direction) with
  | error e => rfl
  | ok direction =>
  cases orUnknown .format request.format (Format.parse? request.format) with
  | error e => rfl
  | ok format =>
  cases orUnknown .endpointMatch request.endpointMatch
    (EndpointMatch.parse? request.endpointMatch) with
  | error e => rfl
  | ok endpointMatch =>
  cases readGroup (cleanList request.group) <;> rfl

namespace Query

variable {g : Graph} {plan : Plan} {builder : Builder} {request : Request} {interrupt : Interrupt}

/-- **Whose time counts**: a cancellation comes first, then the time of the request, and the time of
its caller only if the request brings none. -/
theorem tripped?_effectiveInterrupt (valid : request.validate = .ok plan) :
    (effectiveInterrupt plan interrupt).tripped? =
      if interrupt.cancelled then some .cancelled
      else if Interrupt.isOver (request.timeoutMs.or interrupt.remaining) interrupt.waited then
        some .deadlineExceeded
      else none := by
  unfold effectiveInterrupt
  rw [(Request.asks_of_validate valid).timeoutMs]
  cases request.timeoutMs <;> rfl

/-- A stage asks an interrupt for nothing but whether it has tripped. -/
theorem select_congr {i j : Interrupt} (same : i.tripped? = j.tripped?) :
    select g plan i = select g plan j := by
  unfold select selectSymbol selectProgram DepthMap.measure selectWhole Walk.run Walk.toward
    Walk.callees Walk.callers Walk.along
  simp only [same]

/-! ### The three ends of a selection -/

/-- **A plan has a node to start from**: one that its symbol names, or any that is not synthetic. -/
def Expands (g : Graph) (plan : Plan) : Prop :=
  match plan.symbol with
  | some reference => Symbol.Names g reference
  | none => 0 < g.withoutSynthetic.nodes.size

theorem value_select_of_unknown {reference : String} (valid : request.validate = .ok plan)
    (symbol : plan.symbol = some reference) (unknown : ¬ Symbol.Names g reference) :
    (select g plan interrupt).run.value = .error (.symbolNotFound reference) := by
  obtain ⟨clean, nonempty⟩ := clean_of_cleanOption ((Request.of_validate valid).1.symm.trans symbol)
  obtain ⟨known, _⟩ | ⟨_, unresolved⟩ := Symbol.resolve_cases (g := g) clean nonempty
  · exact absurd known unknown
  · unfold select selectSymbol
    rw [symbol]
    dsimp only
    rw [unresolved]
    rfl

theorem exists_start {reference : String} (valid : request.validate = .ok plan)
    (symbol : plan.symbol = some reference) (known : Symbol.Names g reference) :
    ∃ start, Symbol.resolve g reference = .ok start ∧ g.contains start = true := by
  obtain ⟨clean, nonempty⟩ := clean_of_cleanOption ((Request.of_validate valid).1.symm.trans symbol)
  obtain ⟨_, start, inRange, resolved⟩ | ⟨unknown, _⟩ :=
    Symbol.resolve_cases (g := g) clean nonempty
  · exact ⟨start, resolved, decide_eq_true inRange⟩
  · exact absurd known unknown

/-- **A selection that has a node to start from is given up** if the interrupt has tripped. -/
theorem value_select_of_tripped (valid : request.validate = .ok plan) (expands : Expands g plan)
    {cause : Interruption} (tripped : interrupt.tripped? = some cause) :
    (select g plan interrupt).run.value = .error (.interrupted cause) := by
  unfold Expands at expands
  unfold select
  cases symbol : plan.symbol with
  | some reference =>
    rw [symbol] at expands
    obtain ⟨start, resolved, known⟩ := exists_start valid symbol expands
    exact value_selectSymbol_of_tripped resolved known tripped
  | none =>
    rw [symbol] at expands
    dsimp only at expands ⊢
    rw [value_selectProgram_eq, if_pos expands, tripped]

theorem value_select_of_quiet (valid : request.validate = .ok plan) (expands : Expands g plan)
    (quiet : interrupt.tripped? = none) :
    ∃ selection, (select g plan interrupt).run.value = .ok selection := by
  unfold Expands at expands
  unfold select
  cases symbol : plan.symbol with
  | some reference =>
    rw [symbol] at expands
    obtain ⟨start, resolved, known⟩ := exists_start valid symbol expands
    obtain ⟨flow, value, _⟩ := value_selectSymbol_of_quiet resolved known quiet
    exact ⟨_, value⟩
  | none =>
    dsimp only
    rw [value_selectProgram_eq, quiet, ite_self]
    exact ⟨_, rfl⟩

/-- **A program without nodes** is selected in any time. -/
theorem value_select_of_idle (whole : plan.symbol = none) (idle : ¬ Expands g plan)
    (interrupt : Interrupt) : (select g plan interrupt).run.value =
      .ok ⟨g.withoutSynthetic, programFlow g.withoutSynthetic plan⟩ := by
  unfold Expands at idle
  unfold select
  rw [whole] at idle ⊢
  dsimp only at idle ⊢
  rw [value_selectProgram_eq, if_neg idle]

/-! ### The end of a query -/

/-- **How a query fails**: the code of its error, and its words. The cases are told apart by what has
gone well before. -/
inductive Fails (w : Wording) (builder : Builder) (request : Request) (interrupt : Interrupt) :
    String → String → Prop
  | invalid {e : QueryError} : request.validate = .error e →
    Fails w builder request interrupt e.kind (e.message w)
  | unbuilt {plan : Plan} {failure : BuildFailure} : request.validate = .ok plan →
    (builder plan.build).run.value = .error failure →
    Fails w builder request interrupt "collaborator_failure"
      ("call graph construction failed: " ++ ": ".intercalate (failure.chain w))
  | unknownSymbol {plan : Plan} {g : Graph} {reference : String} : request.validate = .ok plan →
    (builder plan.build).run.value = .ok g → plan.symbol = some reference →
    ¬ Symbol.Names g reference →
    Fails w builder request interrupt "symbol_not_found" ("symbol not found: " ++ reference)
  | cancelled {plan : Plan} {g : Graph} : request.validate = .ok plan →
    (builder plan.build).run.value = .ok g → Expands g plan → interrupt.cancelled = true →
    Fails w builder request interrupt "interrupted" "query interrupted: cancelled by caller"
  | overdue {plan : Plan} {g : Graph} : request.validate = .ok plan →
    (builder plan.build).run.value = .ok g → Expands g plan → interrupt.cancelled = false →
    Interrupt.isOver (request.timeoutMs.or interrupt.remaining) interrupt.waited = true →
    Fails w builder request interrupt "interrupted" "query interrupted: deadline exceeded"

theorem value_run_of_built (valid : request.validate = .ok plan)
    (built : (builder plan.build).run.value = .ok g) :
    (run builder request interrupt).run.value =
      (select g plan (effectiveInterrupt plan interrupt)).run.value.map (answerOf plan) := by
  rw [value_run_eq, valid]
  show ((builder plan.build).run.value.mapError _).bind _ = _
  rw [built]
  rfl

theorem value_run_of_tripped (valid : request.validate = .ok plan)
    (built : (builder plan.build).run.value = .ok g) (expands : Expands g plan)
    {cause : Interruption} (tripped : (effectiveInterrupt plan interrupt).tripped? = some cause) :
    (run builder request interrupt).run.value = .error (.interrupted cause) := by
  rw [value_run_of_built valid built, value_select_of_tripped valid expands tripped]
  rfl

/-- **A query that fails for one of the reasons has the error that belongs to it.** -/
theorem Fails.value_run {w : Wording} {kind text : String}
    (fails : Fails w builder request interrupt kind text) :
    ∃ e, (run builder request interrupt).run.value = .error e ∧ e.kind = kind ∧
      e.message w = text := by
  cases fails with
  | @invalid e invalid =>
    refine ⟨e, ?_, rfl, rfl⟩
    rw [value_run_eq, invalid]
    rfl
  | @unbuilt plan failure valid unbuilt =>
    refine ⟨.construction failure, ?_, rfl, rfl⟩
    rw [value_run_eq, valid]
    show ((builder plan.build).run.value.mapError _).bind _ = _
    rw [unbuilt]
    rfl
  | @unknownSymbol plan g reference valid built symbol unknown =>
    refine ⟨.symbolNotFound reference, ?_, rfl, rfl⟩
    rw [value_run_of_built valid built, value_select_of_unknown valid symbol unknown]
    rfl
  | cancelled valid built expands cancelled =>
    refine ⟨.interrupted .cancelled, value_run_of_tripped valid built expands ?_, rfl, rfl⟩
    rw [tripped?_effectiveInterrupt valid, if_pos cancelled]
  | overdue valid built expands waiting late =>
    refine ⟨.interrupted .deadlineExceeded, value_run_of_tripped valid built expands ?_, rfl, rfl⟩
    rw [tripped?_effectiveInterrupt valid, waiting, if_neg Bool.false_ne_true, if_pos late]

theorem select_withTimeout (limit : Option Nat) :
    select g { plan with timeoutMs := limit } = select g plan := by
  unfold select selectSymbol selectProgram
  rfl

theorem value_run_uninterrupted (valid : request.validate = .ok plan)
    (built : (builder plan.build).run.value = .ok g) :
    (run builder { request with timeoutMs := none } .none).run.value =
      (select g plan .none).run.value.map (answerOf plan) := by
  have valid' : { request with timeoutMs := none }.validate =
      .ok { plan with timeoutMs := none } := by
    rw [Request.validate_withTimeout, valid]
    rfl
  rw [value_run_of_built valid' built, select_withTimeout]
  rfl

theorem value_run_of_quiet (valid : request.validate = .ok plan)
    (built : (builder plan.build).run.value = .ok g) (expands : Expands g plan)
    (quiet : (effectiveInterrupt plan interrupt).tripped? = none) :
    ∃ a, (run builder request interrupt).run.value = .ok a ∧
      (run builder { request with timeoutMs := none } .none).run.value = .ok a := by
  obtain ⟨selection, value⟩ := value_select_of_quiet valid expands quiet
  rw [value_run_uninterrupted valid built, value_run_of_built valid built,
    select_congr (i := .none) (quiet.symm : Interrupt.none.tripped? = _), value]
  exact ⟨_, rfl, rfl⟩

theorem value_run_of_idle (valid : request.validate = .ok plan)
    (built : (builder plan.build).run.value = .ok g) (whole : plan.symbol = none)
    (idle : ¬ Expands g plan) :
    ∃ a, (run builder request interrupt).run.value = .ok a ∧
      (run builder { request with timeoutMs := none } .none).run.value = .ok a := by
  rw [value_run_uninterrupted valid built, value_run_of_built valid built,
    value_select_of_idle whole idle, value_select_of_idle whole idle]
  exact ⟨_, rfl, rfl⟩

/-- **A query fails for one of the reasons, or it has its answer.** -/
theorem fails_or_answers (w : Wording) (builder : Builder) (request : Request)
    (interrupt : Interrupt) :
    (∃ e, (run builder request interrupt).run.value = .error e ∧
      Fails w builder request interrupt e.kind (e.message w)) ∨
    ∃ a, (run builder request interrupt).run.value = .ok a ∧
      (run builder { request with timeoutMs := none } .none).run.value = .ok a := by
  -- A reason brings its error with it, so it is enough to name the reason or the answer.
  have reason : ∀ {kind text : String}, Fails w builder request interrupt kind text →
      ∃ e, (run builder request interrupt).run.value = .error e ∧
        Fails w builder request interrupt e.kind (e.message w) := by
    intro kind text fails
    obtain ⟨e, value, rfl, rfl⟩ := fails.value_run
    exact ⟨e, value, fails⟩
  cases valid : request.validate with
  | error e => exact Or.inl (reason (.invalid valid))
  | ok plan =>
    cases built : (builder plan.build).run.value with
    | error failure => exact Or.inl (reason (.unbuilt valid built))
    | ok g =>
      by_cases expands : Expands g plan
      · cases tripped : (effectiveInterrupt plan interrupt).tripped? with
        | none => exact Or.inr (value_run_of_quiet valid built expands tripped)
        | some cause =>
          rw [tripped?_effectiveInterrupt valid] at tripped
          split at tripped
          · rename_i cancelled
            exact Or.inl (reason (.cancelled valid built expands cancelled))
          · rename_i waiting
            split at tripped
            · rename_i late
              exact Or.inl (reason (.overdue valid built expands (by simpa using waiting) late))
            · cases tripped
      · cases symbol : plan.symbol with
        | none => exact Or.inr (value_run_of_idle valid built symbol expands)
        | some reference =>
          unfold Expands at expands
          rw [symbol] at expands
          exact Or.inl (reason (.unknownSymbol valid built symbol expands))

/-- **The end of a query is decided by the first reason to fail that holds**: a request that makes no
sense, a graph that cannot be built, a symbol that names no node, whoever waits; and then, if there is
a node to start from, a cancellation before a missed deadline. An error comes without an answer. If
no reason holds, then there is an answer, the same as for a request without a time limit from a
caller that neither cancels nor has a deadline. -/
theorem run_ends (w : Wording) (builder : Builder) (request : Request) (interrupt : Interrupt) :
    (∀ kind text, (∃ e, (run builder request interrupt).run.value = .error e ∧ e.kind = kind ∧
      e.message w = text) ↔ Fails w builder request interrupt kind text) ∧
    ((∃ kind text, Fails w builder request interrupt kind text) ∨
      ∃ a, (run builder request interrupt).run.value = .ok a ∧
        (run builder { request with timeoutMs := none } .none).run.value = .ok a) := by
  have ends := fails_or_answers w builder request interrupt
  refine ⟨fun kind text => ⟨?_, Fails.value_run⟩, ?_⟩
  · rintro ⟨e, value, rfl, rfl⟩
    obtain ⟨e', value', fails⟩ | ⟨a, value', _⟩ := ends
    · rw [value] at value'
      cases value'
      exact fails
    · rw [value] at value'
      cases value'
  · exact ends.imp_left fun ⟨e, _, fails⟩ => ⟨_, _, fails⟩

/-! ### Time of one's own -/

/-- **A query that has a node to start from is interrupted exactly if its caller has cancelled or its
time is over.** Its time is that of the request; the time of the caller counts only for a request
that brings none. -/
theorem run_interrupted_iff (valid : request.validate = .ok plan)
    (built : (builder plan.build).run.value = .ok g) (expands : Expands g plan) :
    (∃ e, (run builder request interrupt).run.value = .error e ∧ e.kind = "interrupted") ↔
      interrupt.cancelled = true ∨
        Interrupt.isOver (request.timeoutMs.or interrupt.remaining) interrupt.waited = true := by
  have time : (effectiveInterrupt plan interrupt).tripped? = _ := tripped?_effectiveInterrupt valid
  cases tripped : (effectiveInterrupt plan interrupt).tripped? with
  | some cause =>
    refine iff_of_true
      ⟨_, value_run_of_tripped valid built expands tripped, rfl⟩ ?_
    by_contra neither
    obtain ⟨waiting, within⟩ := not_or.1 neither
    rw [if_neg waiting, if_neg within, tripped] at time
    cases time
  | none =>
    obtain ⟨a, value, _⟩ := value_run_of_quiet valid built expands tripped
    refine iff_of_false ?_ ?_
    · rintro ⟨e, value', _⟩
      rw [value] at value'
      cases value'
    · rintro (cancelled | late)
      · rw [if_pos cancelled, tripped] at time
        cases time
      · rw [if_pos late, tripped] at time
        split at time <;> cases time

/-- A request that gives itself a day, and what it means. -/
def patient : Request where
  moduleArgs := ["app"]
  symbol := some "ping"
  excludeUnexported := false
  timeoutMs := some 86400000

def patientPlan : Plan where
  build := { moduleArgs := ["app"], dir := none, algorithm := .rta, includeTests := false, tags := [] }
  symbol := some "ping"
  direction := .callees
  group := .byModule
  filter := { excludeStd := true }
  maxDepth := defaultSymbolDepth
  format := .mermaid
  debug := false
  timeoutMs := some 86400000

theorem validate_patient : patient.validate = .ok patientPlan := by decide +kernel

theorem expands_pingPong : Expands Walk.pingPong patientPlan :=
  ⟨_, Array.getElem_mem (show 0 < Walk.pingPong.nodes.size by decide), .byName, rfl⟩

/-- A graph that takes more than the day. -/
theorem run_interrupted_iff_pingPong :
    patient.validate = .ok patientPlan ∧
    ((fun _ => pure Walk.pingPong : Builder) patientPlan.build).run.value = .ok Walk.pingPong ∧
    Expands Walk.pingPong patientPlan ∧
    ∃ e, (run (fun _ => pure Walk.pingPong) patient { waited := 86400001 }).run.value = .error e ∧
      e.kind = "interrupted" :=
  ⟨validate_patient, rfl, expands_pingPong,
    (run_interrupted_iff validate_patient rfl expands_pingPong).2 (Or.inr rfl)⟩

/-- A caller whose time is over from the start. -/
def hurried : Interrupt := { remaining := some 0 }

/-- **A request may take more time than its caller has.** The deadline of the caller is over, but the
request gives itself a day and is answered; without a time of its own it is interrupted. -/
theorem run_outlives_caller :
    patient.validate = .ok patientPlan ∧ Expands Walk.pingPong patientPlan ∧
    hurried.tripped? = some .deadlineExceeded ∧
    (∃ a, (run (fun _ => pure Walk.pingPong) patient hurried).run.value = .ok a) ∧
    ∃ e, (run (fun _ => pure Walk.pingPong) { patient with timeoutMs := none }
        hurried).run.value = .error e ∧ e.kind = "interrupted" := by
  have valid : { patient with timeoutMs := none }.validate =
      .ok { patientPlan with timeoutMs := none } := by
    rw [Request.validate_withTimeout, validate_patient]
    rfl
  have expands : Expands Walk.pingPong { patientPlan with timeoutMs := none } := expands_pingPong
  have late : (effectiveInterrupt { patientPlan with timeoutMs := none } hurried).tripped? =
      some .deadlineExceeded := rfl
  obtain ⟨a, value, _⟩ :
      ∃ a, (run (fun _ => pure Walk.pingPong) patient hurried).run.value = .ok a ∧ _ :=
    value_run_of_quiet validate_patient rfl expands_pingPong rfl
  exact ⟨validate_patient, expands_pingPong, rfl, ⟨a, value⟩, _,
    value_run_of_tripped valid rfl expands late, rfl⟩

end Query

end CallGraph
