import CallGraph.Proofs.Answer

/-!
**A plan is a normal form of its request.**

Validation takes lists apart at their commas, takes blanks away, reads words in any case and under
any of their names, and chooses the bound that is missing. What is left after that is written in one
way only, and it is read as it is written.

* `Clean`, `cleanList_eq_self_iff`, `clean_of_mem_cleanList` — the entries of a cleaned list, and
  the lists that are clean already;
* `cleanList_intercalate` — a list may be joined by commas;
* `Request.writtenBack` — a request that says what a plan says, in the words it is shown by;
* `Request.validate_normal` — that request has the plan it was written from, and a request whose
  lists are joined has the plan, or the error, that it had.
-/

namespace CallGraph

/-! ### The parts of a joined text -/

namespace Text

variable {α : Type} {cut : α → Bool}

/-- A separator ends the parts of what stands before it. -/
theorem pieces_append_cons {b : α} (ends : cut b = true) (xs ys : List α) :
    pieces cut (xs ++ b :: ys) = pieces cut xs ++ pieces cut ys := by
  induction xs with
  | nil =>
    show pieces cut (b :: ys) = [] :: pieces cut ys
    rw [pieces, if_pos ends]
  | cons a xs hyp =>
    rw [List.cons_append, pieces, pieces, hyp]
    by_cases isCut : cut a = true
    · rw [if_pos isCut, if_pos isCut]
      rfl
    · rw [if_neg isCut, if_neg isCut]
      -- The first part grows by a character, and there is one before the separator.
      cases first : pieces cut xs with
      | nil => exact absurd first (pieces_ne_nil cut xs)
      | cons part parts => rfl

/-- A text that is joined by commas has the parts of its parts. -/
theorem split_intercalate {values : List String} (some : values ≠ []) :
    split (· == ',') (",".intercalate values) = values.flatMap (split (· == ',')) := by
  induction values with
  | nil => exact absurd rfl some
  | cons v rest hyp =>
    cases rest with
    | nil => rw [String.intercalate_singleton, List.flatMap_singleton]
    | cons w rest =>
      have later := hyp (List.cons_ne_nil _ _)
      rw [String.intercalate_cons_cons, List.flatMap_cons, ← later]
      unfold split
      rw [String.toList_append, String.toList_append, List.append_assoc, ← List.map_append]
      exact congrArg (List.map String.ofList) (pieces_append_cons (by decide) _ _)

/-- What is trimmed holds no new characters. -/
theorem mem_of_mem_trim {s : String} {c : Char} (here : c ∈ (trim s).toList) : c ∈ s.toList := by
  rw [trim, String.toList_ofList, trimBlanks, List.mem_reverse] at here
  have kept := (List.dropWhile_sublist isBlank).subset here
  exact (List.dropWhile_sublist isBlank).subset (List.mem_reverse.1 kept)

end Text

/-! ### Clean lists -/

/-- An entry that cleaning leaves alone. -/
structure Clean (entry : String) : Prop where
  trimmed : Text.trim entry = entry
  nonempty : entry ≠ ""
  whole : ',' ∉ entry.toList

/-- The entries of a cleaned list are clean. -/
theorem clean_of_mem_cleanList {values : List String} {entry : String}
    (here : entry ∈ cleanList values) : Clean entry := by
  obtain ⟨inMap, nonempty⟩ := List.mem_filter.1 here
  obtain ⟨part, inSplit, rfl⟩ := List.mem_map.1 inMap
  obtain ⟨v, _, isPart⟩ := List.mem_flatMap.1 inSplit
  obtain ⟨cs, isPiece, rfl⟩ := List.mem_map.1 isPart
  refine ⟨Text.trim_trim _, by simpa using nonempty, fun comma => ?_⟩
  have inPart := Text.mem_of_mem_trim comma
  rw [String.toList_ofList] at inPart
  exact absurd (Text.not_cut_of_mem_pieces isPiece inPart) (by decide)

theorem cleanList_cons (v : String) (values : List String) :
    cleanList (v :: values) = cleanList [v] ++ cleanList values := by
  simp only [cleanList, List.flatMap_cons, List.flatMap_nil, List.append_nil, List.map_append,
    List.filter_append]

theorem cleanList_of_clean {entry : String} (clean : Clean entry) : cleanList [entry] = [entry] := by
  have free : ∀ c ∈ entry.toList, (c == ',') = false := fun c here =>
    beq_false_of_ne fun same => clean.whole (same ▸ here)
  rw [cleanList, List.flatMap_singleton, Text.split, Text.pieces_whole free, List.map_singleton,
    List.map_singleton, String.ofList_toList, clean.trimmed]
  exact List.filter_cons_of_pos (decide_eq_true clean.nonempty)

/-- **The lists that cleaning leaves alone** are those of clean entries. -/
theorem cleanList_eq_self_iff {values : List String} :
    cleanList values = values ↔ ∀ entry ∈ values, Clean entry := by
  constructor
  · intro same entry here
    exact clean_of_mem_cleanList (same.symm ▸ here)
  · intro clean
    induction values with
    | nil => rfl
    | cons v rest hyp =>
      obtain ⟨first, others⟩ := List.forall_mem_cons.1 clean
      rw [cleanList_cons, cleanList_of_clean first, hyp others, List.singleton_append]

/-- A list is cleaned once. -/
theorem cleanList_cleanList (values : List String) : cleanList (cleanList values) = cleanList values :=
  cleanList_eq_self_iff.2 fun _ here => clean_of_mem_cleanList here

/-- **The entries of a list may be joined by commas.** -/
theorem cleanList_intercalate (values : List String) :
    cleanList [",".intercalate values] = cleanList values := by
  by_cases empty : values = []
  · subst empty
    -- Nothing is joined to the empty text, which is no entry.
    decide
  · rw [cleanList, cleanList, List.flatMap_singleton, Text.split_intercalate empty]

/-- A text is cleaned once. -/
theorem cleanOption_cleanOption (value : Option String) :
    cleanOption (cleanOption value) = cleanOption value := by
  cases value with
  | none => rfl
  | some s =>
    by_cases blank : Text.trim s = ""
    · have nothing : cleanOption (some s) = none := by
        simp only [cleanOption, Option.map_some, blank]
        rfl
      rw [nothing]
      rfl
    · have something : cleanOption (some s) = some (Text.trim s) := by
        rw [cleanOption, Option.map_some, Option.filter_some, if_pos (decide_eq_true blank)]
      rw [something, cleanOption, Option.map_some, Text.trim_trim, Option.filter_some,
        if_pos (decide_eq_true blank)]

/-- The keys that a grouping is shown by are clean. -/
theorem cleanList_keys (g : Grouping) : cleanList g.keys = g.keys := by
  cases g <;> decide +kernel

/-! ### Writing a plan back -/

namespace Request

/-- The request that says what a plan says: its lists and texts are those of the plan, its words
those that the choices are shown by. All that a plan does not say is left as it was. -/
def writtenBack (r : Request) (p : Plan) : Request :=
  { r with
    moduleArgs := p.build.moduleArgs
    algo := p.build.algorithm.name
    symbol := p.symbol
    direction := p.direction.name
    group := p.group.keys
    limitPrefix := p.filter.includePrefixes
    limitKeyword := p.filter.limitKeywords
    ignore := p.filter.ignore
    focus := p.filter.focus
    maxDepth := some p.maxDepth
    tags := p.build.tags
    format := p.format.name
    endpointMatch := p.filter.endpointMatch.name }

theorem ofKeys_keys_eq_ok (g : Grouping) : Grouping.ofKeys g.keys = .ok g := by
  have read := Grouping.ofKeys_keys g
  cases same : Grouping.ofKeys g.keys with
  | error key => rw [same] at read; cases read
  | ok h => rw [same] at read; exact congrArg Except.ok (Option.some.inj read)

/-- What a request means is what it means when it is written back. -/
theorem Means.writtenBack {r : Request} {p : Plan} (means : r.Means p) : (r.writtenBack p).Means p := by
  have modules : p.build.moduleArgs = cleanList r.moduleArgs := by rw [means.build]
  have tags : p.build.tags = cleanList r.tags := by rw [means.build]
  have symbol : cleanOption p.symbol = p.symbol := by
    rw [means.symbol, cleanOption_cleanOption]
  refine
    { modules := ?_
      algorithm := Algorithm.parse?_name _
      direction := Direction.parse?_name _
      format := Format.parse?_name _
      endpointMatch := EndpointMatch.parse?_name _
      group := ?_
      build := ?_
      symbol := symbol.symm
      filter := ?_
      maxDepth := rfl
      debug := means.debug
      timeoutMs := means.timeoutMs }
  · show cleanList p.build.moduleArgs ≠ []
    rw [modules, cleanList_cleanList]
    exact means.modules
  · show Grouping.ofKeys (cleanList p.group.keys) = .ok p.group
    rw [cleanList_keys, ofKeys_keys_eq_ok]
  · show p.build = ⟨cleanList p.build.moduleArgs, r.dir, p.build.algorithm, r.tests,
      cleanList p.build.tags⟩
    rw [modules, tags, cleanList_cleanList, cleanList_cleanList]
    exact means.build
  · have prefixes : p.filter.includePrefixes = cleanList r.limitPrefix := by rw [means.filter]; rfl
    have keywords : p.filter.limitKeywords = cleanList r.limitKeyword := by rw [means.filter]; rfl
    have ignored : p.filter.ignore = cleanList r.ignore := by rw [means.filter]; rfl
    have focus : p.filter.focus = cleanOption r.focus := by rw [means.filter]; rfl
    show p.filter = ⟨r.excludeStd, r.excludeUnexported, cleanList p.filter.includePrefixes,
      cleanList p.filter.limitKeywords, cleanList p.filter.ignore, cleanOption p.filter.focus,
      p.filter.endpointMatch⟩
    rw [prefixes, keywords, ignored, focus, cleanList_cleanList, cleanList_cleanList,
      cleanList_cleanList, cleanOption_cleanOption]
    exact means.filter

/-! ### Joining lists -/

/-- The lists of a request. -/
inductive ListField where
  | moduleArgs
  | group
  | limitPrefix
  | limitKeyword
  | ignore
  | tags
  deriving DecidableEq

/-- A list, or the one entry that its entries are joined to. -/
def joinedIf (chosen : Bool) (values : List String) : List String :=
  if chosen then [",".intercalate values] else values

/-- The request with the chosen lists joined by commas. -/
def joined (r : Request) (chosen : ListField → Bool) : Request :=
  { r with
    moduleArgs := joinedIf (chosen .moduleArgs) r.moduleArgs
    group := joinedIf (chosen .group) r.group
    limitPrefix := joinedIf (chosen .limitPrefix) r.limitPrefix
    limitKeyword := joinedIf (chosen .limitKeyword) r.limitKeyword
    ignore := joinedIf (chosen .ignore) r.ignore
    tags := joinedIf (chosen .tags) r.tags }

theorem cleanList_joinedIf (chosen : Bool) (values : List String) :
    cleanList (joinedIf chosen values) = cleanList values := by
  cases chosen with
  | false => rfl
  | true => exact cleanList_intercalate values

/-- Joining lists changes neither the plan of a request nor its error. -/
theorem validate_joined_eq (r : Request) (chosen : ListField → Bool) :
    (r.joined chosen).validate = r.validate := by
  have modules : cleanList (r.joined chosen).moduleArgs = cleanList r.moduleArgs :=
    cleanList_joinedIf _ _
  have group : cleanList (r.joined chosen).group = cleanList r.group := cleanList_joinedIf _ _
  have tags : cleanList (r.joined chosen).tags = cleanList r.tags := cleanList_joinedIf _ _
  have filter : (r.joined chosen).filterConfig = r.filterConfig := by
    funext endpointMatch
    simp only [filterConfig, joined, cleanList_joinedIf]
  unfold validate
  rw [modules, group, tags, filter]
  rfl

/-- **A plan is a normal form.** The request that is written back from a plan has that plan again;
and joining any of its lists by commas changes neither the plan of a request nor its error. -/
theorem validate_normal (r : Request) :
    (∀ p, r.validate = .ok p → (r.writtenBack p).validate = .ok p) ∧
      ∀ chosen : ListField → Bool, (r.joined chosen).validate = r.validate := by
  refine ⟨fun p valid => ?_, r.validate_joined_eq⟩
  exact validate_eq_ok_iff.2 (validate_eq_ok_iff.1 valid).writtenBack

/-- A request with blanks, commas, capitals and second names. -/
def untidy : Request where
  moduleArgs := [" a.json ,, \u2003b.json\t", "\u00A0", ","]
  algo := "\u3000JSON "
  symbol := some " app::run\n"
  direction := "Up"
  group := ["type, ,Module", "pkg"]
  limitPrefix := ["app,\u2028util "]
  ignore := ["", " test "]
  focus := some " \u205F"
  tags := ["fast,,slow"]
  format := "GraphViz"
  endpointMatch := " OR"
  debug := true
  timeoutMs := some 5

/-- What it means. -/
def untidyPlan : Plan where
  build := ⟨["a.json", "b.json"], none, .imported, false, ["fast", "slow"]⟩
  symbol := some "app::run"
  direction := .callers
  group := .byModuleAndType
  filter := ⟨true, true, ["app", "util"], [], ["test"], none, .either⟩
  maxDepth := 7
  format := .dot
  debug := true
  timeoutMs := some 5

theorem validate_normal_of_untidy :
    untidy.validate = .ok untidyPlan ∧ (untidy.writtenBack untidyPlan).validate = .ok untidyPlan ∧
      (untidy.joined fun field => field = .moduleArgs).validate = .ok untidyPlan := by
  have valid : untidy.validate = .ok untidyPlan := by decide +kernel
  have normal := validate_normal untidy
  exact ⟨valid, normal.1 untidyPlan valid, (normal.2 _).trans valid⟩

end Request

end CallGraph
