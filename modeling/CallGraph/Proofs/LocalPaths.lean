import CallGraph.Proofs.Totality

/-!
**Paths of functions of the program.**

A path is looked up in three places: as it is written, in the module that it is written in, and in
the crate. A path from `crate` on has its function in the first of them. One from the module on has
it in the second, and leads to it only if there is none in the first: a crate that is called like a
module of another takes the paths of that module.

* `Index.FirstFunction`, `function?_eq` — the function that an id means;
* `resolve_of_candidates` — the path of a function that one of the three places has;
* `expand_crate`, `expand_plain` — what such paths are from the crate on;
* `resolve_localPath` — where the paths of a function lead;
* `localPath_captured` — paths that do not lead to their function.
-/

namespace CallGraph.Program

open Source (Definition Facts Features Site)

/-- The names that a path may start with instead of that of a module or a function. -/
def pathKeywords : List String :=
  ["crate", "self", "super", "Self"]

/-- A leading `crate` is the name of the crate that the module lies in. -/
theorem absolute_crate (names : List String) (modulePath : String) :
    absolute ("crate" :: names) modulePath = ModulePath.crateName modulePath :: names := by
  have nonempty := ModulePath.segments_ne_nil modulePath
  obtain ⟨crate, modules, base⟩ := List.exists_cons_of_ne_nil nonempty
  show (ModulePath.segments modulePath).take 1 ++ names = _
  rw [ModulePath.crateName, base]
  rfl

namespace Index

variable {ix : Index} {algorithm : Algorithm} {made : Option (List String)} {f d : Definition}
  {site : Site} {i : Nat}

/-! ### Functions by their ids -/

/-- **A definition that is the first free function with its id.** -/
structure FirstFunction (ix : Index) (i : Nat) (f : Definition) : Prop where
  found : ix.definition? i = some f
  free : f.receiver = none
  first : ∀ j < i, ∀ e, ix.definition? j = some e → e.receiver = none → e.id ≠ f.id

theorem firstFunction_zero (found : ix.definition? 0 = some f) (free : f.receiver = none) :
    ix.FirstFunction 0 f :=
  ⟨found, free, fun _ before => absurd before (Nat.not_lt_zero _)⟩

/-- An id means the first free function that has it. -/
theorem FirstFunction.function?_eq (first : ix.FirstFunction i f) : ix.function? f.id = some i := by
  obtain ⟨inRange, here⟩ := Array.getElem?_eq_some_iff.1 first.found
  refine Array.findIdx?_eq_some_iff_getElem.2 ⟨inRange, ?_, fun j before => ?_⟩
  · rw [here, first.free]
    simp
  · have there : ix.definition? j = some ix.definitions[j] :=
      Array.getElem?_eq_getElem (Nat.lt_trans before inRange)
    have other := first.first j before _ there
    simpa using other

/-! ### The three places -/

/-- A path is a function that one of the places has, if it does not lead into the platform's
library. -/
theorem resolve_of_candidates {first : String} {rest path : List String}
    (target : site.target = .path (first :: rest)) (own : first ≠ "Self")
    (expanded : ix.expand (first :: rest) d.modulePath = path) (nonempty : path ≠ [])
    (program : isPlatformPath path = false)
    (found : (candidates path d.modulePath d.crate).findSome? ix.function? = some i) :
    ix.resolve algorithm made d site = [.definition i] := by
  have means : ix.pathTargets d (first :: rest) = [.definition i] := by
    rw [pathTargets_cons own, expanded, if_neg (mt List.isEmpty_iff.1 nonempty), resolveNames,
      program, found]
    rfl
  rw [resolve, target]
  show ix.resolvePath d (first :: rest) = _
  rw [resolvePath, means]
  rfl

/-- A path is in the program if its first name is no crate of the platform's library. -/
theorem isPlatformPath_cons {first : String} {rest : List String}
    (program : first ∉ platformCrates) : isPlatformPath (first :: rest) = false := by
  simpa [isPlatformPath] using program

/-- From `crate` on, unless the module has another meaning for that. -/
theorem expand_crate {names : List String} {modulePath : String}
    (kept : ∀ path, ix.imported? modulePath "crate" = some path →
      path = [ModulePath.crateName modulePath]) :
    ix.expand ("crate" :: names) modulePath = ModulePath.crateName modulePath :: names := by
  unfold expand
  dsimp only
  split
  · rename_i path imported
    rw [kept path imported]
    rfl
  · exact absolute_crate names modulePath

/-- A path that starts with neither a keyword nor an imported name is as it is written. -/
theorem expand_plain {first modulePath : String} {rest : List String}
    (plain : first ∉ pathKeywords) (unknown : ix.imported? modulePath first = none) :
    ix.expand (first :: rest) modulePath = first :: rest := by
  simp only [pathKeywords, List.mem_cons, List.not_mem_nil, or_false, not_or] at plain
  obtain ⟨notCrate, notSelf, notSuper, _⟩ := plain
  unfold expand
  dsimp only
  rw [unknown]
  exact absolute_of_plain notCrate notSelf notSuper

/-! ### Paths of functions -/

/-- **The paths of a function lead to it.** One from `crate` on does, unless the crate is called
like one of the platform's library, or the module has another meaning for `crate`. One from the
module on does too, if it starts with no keyword, no imported name and no crate of the platform's
library, unless it is the id of a function as it is written: then it leads to that one. -/
theorem resolve_localPath (first : ix.FirstFunction i f) :
    (∀ names, site.target = .path ("crate" :: names) →
      f.id = ModulePath.ofSegments (d.crate :: names) →
      d.crate ∉ platformCrates →
      (∀ path, ix.imported? d.modulePath "crate" = some path → path = [d.crate]) →
      ix.resolve algorithm made d site = [.definition i]) ∧
    ∀ name rest, site.target = .path (name :: rest) →
      f.id = ModulePath.child d.modulePath (ModulePath.ofSegments (name :: rest)) →
      name ∉ pathKeywords → ix.imported? d.modulePath name = none → name ∉ platformCrates →
      ix.resolve algorithm made d site =
        [.definition ((ix.function? (ModulePath.ofSegments (name :: rest))).getD i)] := by
  have known := first.function?_eq
  constructor
  · intro names target id program kept
    have expanded : ix.expand ("crate" :: names) d.modulePath = d.crate :: names :=
      expand_crate kept
    refine resolve_of_candidates target (by decide) expanded (List.cons_ne_nil _ _)
      (isPlatformPath_cons program) ?_
    rw [id] at known
    rw [candidates, List.findSome?_cons, known]
  · intro name rest target id plain unknown program
    have own : name ≠ "Self" := fun same => plain (by simp [same, pathKeywords])
    refine resolve_of_candidates target own (expand_plain plain unknown) (List.cons_ne_nil _ _)
      (isPlatformPath_cons program) ?_
    rw [id] at known
    rw [candidates, List.findSome?_cons, List.findSome?_cons, known]
    cases ix.function? (ModulePath.ofSegments (name :: rest)) <;> rfl

/-- The index of sources of which the facts are known. -/
theorem ofSources_eq {sources : List SourceFile} {on : Features} {facts : Facts}
    (given : Facts.concat (sources.filterMap fun s =>
      Facts.ofText? { file := s.path, on := on } s.modulePath s.content) = facts) :
    ofSources sources on = ofFacts facts (sources.map (·.modulePath)) := by
  rw [ofSources, given]

/-- A crate with a module, and two calls of the function in it. -/
def ownUtil : List SourceFile :=
  [⟨"src/lib.rs", "app",
    "mod util \x7b pub fn run() \x7b\x7d \x7d fn go() \x7b util::run(); crate::util::run(); \x7d"⟩]

/-- The call from the module on. -/
def callOfUtil : Site where
  target := .path ["util", "run"]
  line := 1

/-- The call from the crate on. -/
def callOfCrate : Site where
  target := .path ["crate", "util", "run"]
  line := 1

/-- The function that is called. -/
def utilRun : Definition where
  id := "app::util::run"
  name := "run"
  modulePath := "app::util"
  exported := true
  file := "src/lib.rs"
  line := 1
  isTest := false
  sites := []
  makes := []

/-- The function that calls it. -/
def appGo : Definition where
  id := "app::go"
  name := "go"
  modulePath := "app"
  exported := false
  file := "src/lib.rs"
  line := 1
  isTest := false
  sites := [callOfUtil, callOfCrate]
  makes := []

/-- What the crate says. -/
def ownFacts : Facts where
  definitions := [utilRun, appGo]

theorem ofSources_ownUtil : ofSources ownUtil {} = ofFacts ownFacts ["app"] :=
  ofSources_eq (by decide +kernel)

theorem resolve_localPath_ownUtil :
    (ofSources ownUtil {}).FirstFunction 0 utilRun ∧
    (ofSources ownUtil {}).definition? 1 = some appGo ∧
    (ofSources ownUtil {}).resolve .static none appGo callOfCrate = [.definition 0] ∧
    (ofSources ownUtil {}).resolve .static none appGo callOfUtil = [.definition 0] := by
  rw [ofSources_ownUtil]
  have first : (ofFacts ownFacts ["app"]).FirstFunction 0 utilRun := firstFunction_zero rfl rfl
  have unknown : (ofFacts ownFacts ["app"]).function? (ModulePath.ofSegments ["util", "run"]) =
    none := by decide +kernel
  have leads : (ofFacts ownFacts ["app"]).resolve .static none appGo callOfUtil = [.definition
      (((ofFacts ownFacts ["app"]).function? (ModulePath.ofSegments ["util", "run"])).getD 0)] :=
    (resolve_localPath first).2 "util" ["run"] rfl (by decide +kernel) (by decide) rfl (by decide)
  rw [unknown] at leads
  refine ⟨first, rfl, ?_, leads⟩
  exact (resolve_localPath first).1 ["util", "run"] rfl (by decide +kernel) (by decide +kernel) nofun

/-! ### Paths that are taken -/

/-- Every path from the crate on leads to its function. -/
def CratePathsLead (ix : Index) : Prop :=
  ∀ algorithm made i j f d site names, ix.FirstFunction i f → ix.definition? j = some d →
    site ∈ d.sites → f.crate = d.crate → site.target = .path ("crate" :: names) →
    f.id = ModulePath.ofSegments (d.crate :: names) →
    ix.resolve algorithm made d site = [.definition i]

/-- Every path from the module on leads to its function, if it starts with neither a keyword nor an
imported name. -/
def ModulePathsLead (ix : Index) : Prop :=
  ∀ algorithm made i j f d site name rest, ix.FirstFunction i f → ix.definition? j = some d →
    site ∈ d.sites → f.crate = d.crate → site.target = .path (name :: rest) →
    f.id = ModulePath.child d.modulePath (ModulePath.ofSegments (name :: rest)) →
    name ∉ pathKeywords → ix.imported? d.modulePath name = none →
    ix.resolve algorithm made d site = [.definition i]

/-- A function of a crate. -/
def functionOf (crate name : String) (sites : List Site) : Definition :=
  { appGo with id := ModulePath.child crate name, name := name, modulePath := crate, sites := sites }

/-- The call of a function of the crate itself. -/
def callOfRun : Site where
  target := .path ["crate", "run"]
  line := 1

/-- The call of a function by its name alone. -/
def callOfAlloc : Site where
  target := .path ["alloc"]
  line := 1

/-- A crate that is called like one of the platform's library. -/
def ownCore : List SourceFile :=
  [⟨"src/lib.rs", "core", "fn run() \x7b\x7d fn go() \x7b crate::run(); \x7d"⟩]

theorem ofSources_ownCore : ofSources ownCore {} = ofFacts
    { definitions := [functionOf "core" "run" [], functionOf "core" "go" [callOfRun]] } ["core"] :=
  ofSources_eq (by decide +kernel)

/-- A crate that imports something that is called `crate`. -/
def otherCrate : List SourceFile :=
  [⟨"src/lib.rs", "app", "use foo::crate; fn run() \x7b\x7d fn go() \x7b crate::run(); \x7d"⟩]

theorem ofSources_otherCrate : ofSources otherCrate {} = ofFacts
    { definitions := [functionOf "app" "run" [], functionOf "app" "go" [callOfRun]]
      imports := [⟨"app", "crate", ["foo", "crate"]⟩] } ["app"] :=
  ofSources_eq (by decide +kernel)

/-- A crate with a function that is called like a crate of the platform's library. -/
def ownAlloc : List SourceFile :=
  [⟨"src/lib.rs", "app", "fn alloc() \x7b\x7d fn go() \x7b alloc(); \x7d"⟩]

theorem ofSources_ownAlloc : ofSources ownAlloc {} = ofFacts
    { definitions := [functionOf "app" "alloc" [], functionOf "app" "go" [callOfAlloc]] } ["app"] :=
  ofSources_eq (by decide +kernel)

/-- The function of a crate that is called like the module above. -/
def otherRun : Definition :=
  { functionOf "util" "run" [] with exported := true, file := "util/src/lib.rs" }

/-- The crate above, and another that is called like its module. -/
def twoUtils : List SourceFile :=
  ownUtil ++ [⟨"util/src/lib.rs", "util", "pub fn run() \x7b\x7d"⟩]

theorem ofSources_twoUtils : ofSources twoUtils {} = ofFacts
    { definitions := [utilRun, appGo, otherRun] } ["app", "util"] :=
  ofSources_eq (by decide +kernel)

/-- **Each condition is needed.** A path from the crate on is taken by the platform's library, or by
an import. One from the module on is taken by the platform's library, or by a crate that is called
like the module. -/
theorem localPath_captured :
    ¬(ofSources ownCore {}).CratePathsLead ∧ ¬(ofSources otherCrate {}).CratePathsLead ∧
    ¬(ofSources ownAlloc {}).ModulePathsLead ∧ ¬(ofSources twoUtils {}).ModulePathsLead := by
  rw [ofSources_ownCore, ofSources_otherCrate, ofSources_ownAlloc, ofSources_twoUtils]
  refine ⟨fun all => ?_, fun all => ?_, fun all => ?_, fun all => ?_⟩
  · have leads := all .static none 0 1 _ _ callOfRun ["run"] (firstFunction_zero rfl rfl) rfl
      List.mem_cons_self rfl rfl (by decide +kernel)
    exact absurd leads (by decide +kernel)
  · have leads := all .static none 0 1 _ _ callOfRun ["run"] (firstFunction_zero rfl rfl) rfl
      List.mem_cons_self rfl rfl (by decide +kernel)
    exact absurd leads (by decide +kernel)
  · have leads := all .static none 0 1 _ _ callOfAlloc "alloc" [] (firstFunction_zero rfl rfl) rfl
      List.mem_cons_self rfl rfl (by decide +kernel) (by decide) rfl
    exact absurd leads (by decide +kernel)
  · have leads := all .static none 0 1 _ _ callOfUtil "util" ["run"] (firstFunction_zero rfl rfl) rfl
      List.mem_cons_self (by decide +kernel) rfl (by decide +kernel) (by decide) rfl
    exact absurd leads (by decide +kernel)

end Index

end CallGraph.Program
