import CallGraph.Proofs.Gathering

/-!
**What is loaded does not hang on the order in which folders are listed.**

The sources that the arguments of a request lead to are put in order by their paths, and of several with
one path the first stays. An argument leads to no path twice, so which source that is hangs on the
arguments alone, and an increasing list is known by its members.

* `hasPath`, `pathOrder` — sources with one path, and their order;
* `increasing_listed`, `mem_listed_iff` — the list of sources, and the source that stays;
* `sourcesFor`, `load_eq_ok_iff` — loading succeeds if all arguments can be read;
* `IsPlain` — a request that names files and folders only;
* `IsFirst`, `Apart` — the first argument that leads to a path, and arguments that lead to different ones;
* `load_relist` — the same is loaded, whatever the order of the listings.
-/

namespace CallGraph.Program

/-! ### Sources by path -/

/-- The order of sources. -/
def pathOrder (s t : SourceFile) : Ordering :=
  Path.compare s.path t.path

/-- Whether a source has a path. -/
def hasPath (path : String) (s : SourceFile) : Bool :=
  Path.same s.path path

instance : Std.TransCmp pathOrder where
  eq_swap {s t} := (Std.OrientedCmp.eq_swap : Path.compare s.path t.path = _)
  isLE_trans {s _ t} first second :=
    (Std.TransCmp.isLE_trans first second : (Path.compare s.path t.path).isLE = true)

section

variable {path : String} {s t : SourceFile} {sources found : List SourceFile}

theorem hasPath_iff : hasPath t.path s = true ↔ pathOrder s t = .eq :=
  Path.compare_eq_eq_iff.symm

/-- Sources with one path have the same path as others. -/
theorem hasPath_congr (same : hasPath path s = true) : hasPath s.path = hasPath path := by
  funext t
  rw [hasPath, hasPath, Path.same, Path.same, Path.same_iff.1 same]

theorem hasPath_comm (s t : SourceFile) : hasPath s.path t = hasPath t.path s := by
  rw [hasPath, hasPath, Path.same, Path.same, Bool.beq_comm]

theorem hasPath_self (s : SourceFile) : hasPath s.path s = true :=
  beq_self_eq_true _

theorem hasPath_of_lt (lt : pathOrder s t = .lt) : hasPath t.path s = false := by
  rw [Bool.eq_false_iff]
  intro same
  rw [hasPath_iff.1 same] at lt
  cases lt

theorem lt_of_isLE (le : (pathOrder s t).isLE = true) (differ : hasPath t.path s = false) :
    pathOrder s t = .lt := by
  cases order : pathOrder s t with
  | lt => rfl
  | eq => exact absurd (hasPath_iff.2 order) (Bool.eq_false_iff.1 differ)
  | gt =>
    rw [order] at le
    cases le

/-! ### Leaving out what has the same path -/

/-- A source leaves out what has its path, if it stands in front of larger ones. -/
theorem keepFirst_eq (increasing : Increasing pathOrder sources)
    (least : ∀ t ∈ sources, (pathOrder s t).isLE = true) :
    keepFirst s sources = s :: sources.filter fun t => !hasPath t.path s := by
  cases sources with
  | nil => rfl
  | cons first rest =>
    obtain ⟨before, _⟩ := List.pairwise_cons.1 increasing
    have le := least first List.mem_cons_self
    have others : (rest.filter fun t => !hasPath t.path s) = rest :=
      List.filter_eq_self.2 fun t here => by
        rw [hasPath_of_lt (Std.TransCmp.lt_of_isLE_of_lt le (before t here)), Bool.not_false]
    rw [keepFirst, List.filter_cons, others]
    show (if hasPath first.path s = true then _ else _) = _
    by_cases same : hasPath first.path s = true
    · rw [if_pos same, same]
      rfl
    · rw [if_neg same, Bool.eq_false_of_not_eq_true same]
      rfl

/-- **What stays of sources in order**: they increase, and each is the first with its path. -/
theorem distinct_of_sorted (sorted : sources.Pairwise fun s t => (pathOrder s t).isLE = true) :
    Increasing pathOrder (distinct sources) ∧
      ∀ t, t ∈ distinct sources ↔ sources.find? (hasPath t.path) = some t := by
  induction sources with
  | nil => exact ⟨.nil, fun t => by simp [distinct]⟩
  | cons s rest hyp =>
    obtain ⟨before, later⟩ := List.pairwise_cons.1 sorted
    obtain ⟨increasing, known⟩ := hyp later
    have least : ∀ t ∈ distinct rest, (pathOrder s t).isLE = true :=
      fun t here => before t ((distinct_sublist rest).subset here)
    have first : distinct (s :: rest) = s :: (distinct rest).filter fun t => !hasPath t.path s :=
      keepFirst_eq increasing least
    rw [first]
    constructor
    · refine List.pairwise_cons.2 ⟨fun t here => ?_, increasing.filter _⟩
      obtain ⟨inRest, differs⟩ := List.mem_filter.1 here
      exact lt_of_isLE (least t inRest) ((Bool.not_eq_true' _).mp differs)
    · intro t
      rw [List.mem_cons, List.mem_filter, known, List.find?_cons]
      cases same : hasPath t.path s with
      | true => simp [eq_comm]
      | false =>
        have other : t ≠ s := by
          rintro rfl
          rw [hasPath_self] at same
          cases same
        simp [other]

/-! ### The list of sources -/

theorem listed_eq (sources : List SourceFile) :
    listed sources = distinct (sources.mergeSort fun s t => (pathOrder s t).isLE) := by
  have order : (fun s t : SourceFile => Path.compare s.path t.path != .gt) =
      fun s t => (pathOrder s t).isLE := by
    funext s t
    show (pathOrder s t != .gt) = _
    cases pathOrder s t <;> rfl
  rw [listed, order]

/-- **Sorting keeps the order of sources with one path.** -/
theorem filter_mergeSort (path : String) (sources : List SourceFile) :
    (sources.mergeSort fun s t => (pathOrder s t).isLE).filter (hasPath path) =
      sources.filter (hasPath path) := by
  have equal : (sources.filter (hasPath path)).Pairwise fun s t => (pathOrder s t).isLE = true := by
    refine List.pairwise_of_forall_mem_list fun s first t second => ?_
    have same := Path.same_iff.1 (List.mem_filter.1 first).2
    have other := Path.same_iff.1 (List.mem_filter.1 second).2
    have order : pathOrder s t = .eq := hasPath_iff.1 (Path.same_iff.2 (same.trans other.symm))
    rw [order]
    rfl
  have kept := List.sublist_mergeSort (fun _ _ _ => Std.TransCmp.isLE_trans) isLE_total equal
    List.filter_sublist
  have inside := kept.filter (hasPath path)
  rw [List.filter_eq_self.2 fun s here => (List.mem_filter.1 here).2] at inside
  have counts := ((List.mergeSort_perm sources fun s t => (pathOrder s t).isLE).filter
    (hasPath path)).length_eq
  exact (inside.eq_of_length counts.symm).symm

/-- Sources are listed by path, each path once. -/
theorem increasing_listed (sources : List SourceFile) : Increasing pathOrder (listed sources) := by
  rw [listed_eq]
  exact (distinct_of_sorted (sorted_mergeSort sources)).1

/-- **The source that stays** is the first with its path. -/
theorem mem_listed_iff : s ∈ listed sources ↔ sources.find? (hasPath s.path) = some s := by
  rw [listed_eq, (distinct_of_sorted (sorted_mergeSort sources)).2, ← List.head?_filter,
    filter_mergeSort, List.head?_filter]

/-- **Every path stays once.** -/
theorem countP_listed (here : s ∈ sources) : (listed sources).countP (hasPath s.path) = 1 := by
  have some : (sources.find? (hasPath s.path)).isSome = true :=
    List.find?_isSome.2 ⟨s, here, hasPath_self s⟩
  obtain ⟨first, found⟩ := Option.isSome_iff_exists.1 some
  have only : (listed sources).filter (hasPath s.path) = [first] := by
    refine Increasing.eq_of_mem_iff ((increasing_listed sources).filter _)
      (List.pairwise_singleton _ _) fun t => ?_
    rw [List.mem_filter, List.mem_singleton, mem_listed_iff]
    constructor
    · rintro ⟨isFirst, same⟩
      rw [hasPath_congr same, found] at isFirst
      exact (Option.some.inj isFirst).symm
    · rintro rfl
      have same := List.find?_some found
      rw [hasPath_congr same]
      exact ⟨found, same⟩
  rw [List.countP_eq_length_filter, only, List.length_singleton]

/-! ### The first of the arguments -/

/-- **A source that the first of the arguments which lead to its path leads to.** -/
def IsFirst (arguments : List String) (lead : String → List SourceFile) (s : SourceFile) : Prop :=
  ∃ before argument after, arguments = before ++ argument :: after ∧ s ∈ lead argument ∧
    ∀ other ∈ before, ∀ t ∈ lead other, hasPath s.path t = false

/-- No two arguments lead to one path. -/
def Apart (arguments : List String) (lead : String → List SourceFile) : Prop :=
  arguments.Pairwise fun a b => ∀ s ∈ lead a, ∀ t ∈ lead b, hasPath s.path t = false

/-- The sources of a list have different paths. -/
def PathsDiffer (sources : List SourceFile) : Prop :=
  (sources.map fun s => Path.components s.path).Nodup

variable {arguments others : List String} {lead lead' : String → List SourceFile}

theorem find?_eq_some_iff_mem (differ : PathsDiffer sources) :
    sources.find? (hasPath s.path) = some s ↔ s ∈ sources := by
  refine ⟨List.mem_of_find?_eq_some, fun here => ?_⟩
  obtain ⟨t, found⟩ := Option.isSome_iff_exists.1
    (List.find?_isSome.2 ⟨s, here, hasPath_self s⟩ : (sources.find? (hasPath s.path)).isSome = true)
  have first : hasPath s.path t = true := List.find?_some found
  have same := Path.same_iff.1 first
  rw [found, List.inj_on_of_nodup_map differ (List.mem_of_find?_eq_some found) here same]

/-- **The source that stays is that of the first argument** that leads to its path. -/
theorem mem_listed_flatMap_iff (differ : ∀ a ∈ arguments, PathsDiffer (lead a)) :
    s ∈ listed (arguments.flatMap lead) ↔ IsFirst arguments lead s := by
  rw [mem_listed_iff, List.find?_flatMap, List.findSome?_eq_some_iff]
  refine exists_congr fun before => exists_congr fun argument => exists_congr fun after =>
    and_congr_right fun split => ?_
  have here : argument ∈ arguments := by simp [split]
  rw [find?_eq_some_iff_mem (differ argument here)]
  simp only [List.find?_eq_none, Bool.not_eq_true]

theorem isFirst_congr (same : ∀ a ∈ arguments, ∀ s, s ∈ lead a ↔ s ∈ lead' a) :
    IsFirst arguments lead s ↔ IsFirst arguments lead' s := by
  refine exists_congr fun before => exists_congr fun argument => exists_congr fun after =>
    and_congr_right fun split => ?_
  rw [same argument (by simp [split]) s]
  refine and_congr_right fun _ => forall₂_congr fun other inBefore => forall_congr' fun t => ?_
  rw [same other (by simp [split, inBefore]) t]

/-- If no two arguments lead to one path, each of them is the first. -/
theorem Apart.isFirst_iff (apart : Apart arguments lead) :
    IsFirst arguments lead s ↔ ∃ a ∈ arguments, s ∈ lead a := by
  constructor
  · rintro ⟨before, argument, after, rfl, here, _⟩
    exact ⟨argument, by simp, here⟩
  · rintro ⟨argument, inArguments, here⟩
    obtain ⟨before, after, rfl⟩ := List.append_of_mem inArguments
    refine ⟨before, argument, after, rfl, here, fun other inBefore t there => ?_⟩
    rw [hasPath_comm]
    exact (List.pairwise_append.1 apart).2.2 other inBefore argument List.mem_cons_self t there s here

theorem Apart.perm (apart : Apart arguments lead) (perm : arguments.Perm others) :
    Apart others lead := by
  refine List.Pairwise.perm apart perm fun {a b} differ s here t there => ?_
  rw [hasPath_comm]
  exact differ t there s here

/-! ### The sources that arguments lead to -/

/-- The sources that an argument leads to, if it can be read. -/
def sourcesFor (fs : Files) (r : BuildRequest) (argument : String) : List SourceFile :=
  match loadArgument fs r argument with
  | .ok found => found
  | .error _ => []

/-- An argument can be read. -/
def CanLoad (fs : Files) (r : BuildRequest) (argument : String) : Prop :=
  loadArgument fs r argument = .ok (sourcesFor fs r argument)

variable {fs : Files} {r : BuildRequest} {argument : String} {top : Entry}

theorem canLoad_iff : CanLoad fs r argument ↔ ∃ found, loadArgument fs r argument = .ok found := by
  unfold CanLoad sourcesFor
  cases loadArgument fs r argument with
  | error fault => exact ⟨nofun, nofun⟩
  | ok found => exact ⟨fun _ => ⟨found, rfl⟩, fun _ => rfl⟩

theorem sourcesFor_eq (read : loadArgument fs r argument = .ok found) :
    sourcesFor fs r argument = found := by
  unfold sourcesFor
  rw [read]

/-- Reading keeps the paths. -/
theorem pathsDiffer_of_mapM {spots : List Spot} (differ : (spots.map Spot.steps).Nodup)
    (read : spots.mapM Spot.read = .ok found) : PathsDiffer found := by
  have same : found.map (fun s => Path.components s.path) = spots.map Spot.steps := by
    have all := mapM_eq_ok_iff.1 read
    clear read differ
    induction all with
    | nil => rfl
    | cons first _ hyp =>
      rw [List.map_cons, List.map_cons, hyp, (Spot.read_eq_ok_iff.1 first).1]
      rfl
  rwa [PathsDiffer, same]

/-- **An argument leads to no path twice**, unless it is a manifest: two targets of a package may share
their sources. -/
theorem pathsDiffer_sourcesFor (named : fs.top.Named)
    (plain : isManifest (pathOf r argument) = false) : PathsDiffer (sourcesFor fs r argument) := by
  unfold sourcesFor
  cases read : loadArgument fs r argument with
  | error fault => exact List.nodup_nil
  | ok found =>
    obtain ⟨spots, given, all⟩ := (loadArgument_eq_ok_iff plain).1 read
    exact pathsDiffer_of_mapM (nodup_argumentSpots named given) all

theorem mapM_loadArgument_eq_ok_iff {founds : List (List SourceFile)} :
    arguments.mapM (loadArgument fs r) = .ok founds ↔
      (∀ a ∈ arguments, CanLoad fs r a) ∧ founds = arguments.map (sourcesFor fs r) := by
  rw [mapM_eq_ok_iff]
  constructor
  · intro each
    induction each with
    | nil => exact ⟨fun a here => absurd here List.not_mem_nil, rfl⟩
    | cons first _ hyp =>
      refine ⟨List.forall_mem_cons.2 ⟨canLoad_iff.2 ⟨_, first⟩, hyp.1⟩, ?_⟩
      rw [List.map_cons, sourcesFor_eq first, ← hyp.2]
  · rintro ⟨each, rfl⟩
    exact List.forall₂_map_right_iff.2 (List.forall₂_same.2 each)

/-- All arguments of a request are read, one after the other. -/
theorem load_eq_ok_iff : load fs r = .ok sources ↔
    (∀ a ∈ r.moduleArgs, CanLoad fs r a) ∧
      sources = listed (r.moduleArgs.flatMap (sourcesFor fs r)) := by
  unfold load
  constructor
  · intro loaded
    cases read : r.moduleArgs.mapM (loadArgument fs r) with
    | error fault =>
      rw [read] at loaded
      cases loaded
    | ok founds =>
      rw [read] at loaded
      obtain ⟨each, rfl⟩ := mapM_loadArgument_eq_ok_iff.1 read
      exact ⟨each, (Except.ok.inj loaded).symm⟩
  · rintro ⟨each, rfl⟩
    rw [mapM_loadArgument_eq_ok_iff.2 ⟨each, rfl⟩]
    rfl

/-- A request that names files and folders, and no manifest. -/
def IsPlain (r : BuildRequest) : Prop :=
  ∀ a ∈ r.moduleArgs, isManifest (pathOf r a) = false

/-- **What is loaded**: the first source for each path, in the order of the paths. -/
theorem load_eq_ok_iff_isFirst (named : fs.top.Named) (plain : IsPlain r) : load fs r = .ok sources ↔
    (∀ a ∈ r.moduleArgs, CanLoad fs r a) ∧ Increasing pathOrder sources ∧
      ∀ s, s ∈ sources ↔ IsFirst r.moduleArgs (sourcesFor fs r) s := by
  have known : ∀ s, s ∈ listed (r.moduleArgs.flatMap (sourcesFor fs r)) ↔
      IsFirst r.moduleArgs (sourcesFor fs r) s :=
    fun s => mem_listed_flatMap_iff fun a here => pathsDiffer_sourcesFor named (plain a here)
  rw [load_eq_ok_iff]
  refine and_congr_right fun _ => ⟨?_, fun ⟨increasing, isFirst⟩ => ?_⟩
  · rintro rfl
    exact ⟨increasing_listed _, known⟩
  · exact increasing.eq_of_mem_iff (increasing_listed _) fun s => (isFirst s).trans (known s).symm

/-! ### Another order of the arguments -/

/-- **How an argument is read** hangs on the directory that it is read from, and on whether tests are
wanted. -/
theorem sourcesFor_congr (fs : Files) {r r' : BuildRequest} (dir : r'.dir = r.dir)
    (tests : r'.includeTests = r.includeTests) (argument : String) :
    (CanLoad fs r' argument ↔ CanLoad fs r argument) ∧
      sourcesFor fs r' argument = sourcesFor fs r argument := by
  have path : pathOf r' argument = pathOf r argument := by
    rw [pathOf, pathOf, baseOf, baseOf, dir]
  have same : loadArgument fs r' argument = loadArgument fs r argument := by
    unfold loadArgument
    rw [path, tests]
  unfold CanLoad sourcesFor
  rw [same]
  exact ⟨Iff.rfl, rfl⟩

/-- **Arguments that lead to different paths may be given in any order.** -/
theorem load_of_perm {r' : BuildRequest} (named : fs.top.Named) (plain : IsPlain r)
    (dir : r'.dir = r.dir) (tests : r'.includeTests = r.includeTests) (perm : r'.moduleArgs.Perm r.moduleArgs)
    (apart : Apart r.moduleArgs (sourcesFor fs r)) :
    load fs r' = .ok sources ↔ load fs r = .ok sources := by
  have loads : ∀ a, CanLoad fs r' a ↔ CanLoad fs r a :=
    fun a => (sourcesFor_congr fs dir tests a).1
  have leads : sourcesFor fs r' = sourcesFor fs r :=
    funext fun a => (sourcesFor_congr fs dir tests a).2
  have plain' : IsPlain r' := fun a here => by
    rw [pathOf, baseOf, dir]
    exact plain a (perm.mem_iff.1 here)
  rw [load_eq_ok_iff_isFirst named plain', load_eq_ok_iff_isFirst named plain, leads]
  simp only [loads, (apart.perm perm.symm).isFirst_iff, apart.isFirst_iff, perm.mem_iff]

/-! ### Another order of the listings -/

theorem loadArgument_relist (named : fs.top.Named) (relisted : fs.top.Relisted top)
    (plain : isManifest (pathOf r argument) = false)
    (read : loadArgument fs r argument = .ok found) :
    ∃ others, loadArgument (fs.relist top) r argument = .ok others ∧ found.Perm others := by
  obtain ⟨spots, given, all⟩ := (loadArgument_eq_ok_iff plain).1 read
  obtain ⟨spots', given', perm⟩ := perm_argumentSpots named relisted given
  obtain ⟨others, all', same⟩ := perm_of_mapM perm all
  exact ⟨others, (loadArgument_eq_ok_iff plain).2 ⟨spots', given', all'⟩, same⟩

/-- An argument can be read in any order, and leads to the same sources. -/
theorem sourcesFor_relist (named : fs.top.Named) (relisted : fs.top.Relisted top)
    (plain : isManifest (pathOf r argument) = false) :
    (CanLoad (fs.relist top) r argument ↔ CanLoad fs r argument) ∧
      ∀ s, s ∈ sourcesFor (fs.relist top) r argument ↔ s ∈ sourcesFor fs r argument := by
  have moved : (fs.relist top).top.Named := relisted.named named
  have back : ∀ {found}, loadArgument (fs.relist top) r argument = .ok found →
      ∃ others, loadArgument fs r argument = .ok others ∧ found.Perm others :=
    loadArgument_relist moved relisted.symm plain
  rw [canLoad_iff, canLoad_iff]
  cases read : loadArgument fs r argument with
  | ok found =>
    obtain ⟨others, read', perm⟩ := loadArgument_relist named relisted plain read
    rw [read', sourcesFor_eq read, sourcesFor_eq read']
    exact ⟨⟨fun _ => ⟨_, rfl⟩, fun _ => ⟨_, rfl⟩⟩, fun s => perm.mem_iff.symm⟩
  | error fault =>
    unfold sourcesFor
    cases read' : loadArgument (fs.relist top) r argument with
    | ok others =>
      obtain ⟨found, loaded, _⟩ := back read'
      rw [read] at loaded
      cases loaded
    | error fault' =>
      rw [read]
      exact ⟨⟨nofun, nofun⟩, fun s => Iff.rfl⟩

/-- **The same is loaded** in any order. -/
theorem load_of_relisted (named : fs.top.Named) (relisted : fs.top.Relisted top) (plain : IsPlain r)
    (sources : List SourceFile) :
    load (fs.relist top) r = .ok sources ↔ load fs r = .ok sources := by
  have moved : (fs.relist top).top.Named := relisted.named named
  have loads : ∀ a ∈ r.moduleArgs, (CanLoad (fs.relist top) r a ↔ CanLoad fs r a) :=
    fun a here => (sourcesFor_relist named relisted (plain a here)).1
  have leads : ∀ a ∈ r.moduleArgs, ∀ s,
      s ∈ sourcesFor (fs.relist top) r a ↔ s ∈ sourcesFor fs r a :=
    fun a here => (sourcesFor_relist named relisted (plain a here)).2
  rw [load_eq_ok_iff_isFirst moved plain, load_eq_ok_iff_isFirst named plain, forall₂_congr loads]
  simp only [isFirst_congr leads]

/-- **Loading files and folders does not hang on the order in which folders are listed.** It succeeds for
one order if and only if it does for any other, with the same sources. They increase, and each is that
of the first argument which leads to its path; every path that an argument leads to is there once. And
if no two arguments lead to one path, they may be given in any order. -/
theorem load_relist (named : fs.top.Named) (relisted : fs.top.Relisted top) (plain : IsPlain r) :
    (∀ sources, load (fs.relist top) r = .ok sources ↔ load fs r = .ok sources) ∧
      (∀ sources, load fs r = .ok sources →
        Increasing pathOrder sources ∧
          (∀ s, s ∈ sources ↔ IsFirst r.moduleArgs (sourcesFor fs r) s) ∧
          ∀ a ∈ r.moduleArgs, CanLoad fs r a ∧
            ∀ s ∈ sourcesFor fs r a, sources.countP (hasPath s.path) = 1) ∧
      ∀ arguments, arguments.Perm r.moduleArgs → Apart r.moduleArgs (sourcesFor fs r) →
        ∀ sources, load (fs.relist top) { r with moduleArgs := arguments } = .ok sources ↔
          load fs r = .ok sources := by
  refine ⟨load_of_relisted named relisted plain, fun sources loaded => ?_, ?_⟩
  · obtain ⟨all, increasing, isFirst⟩ := (load_eq_ok_iff_isFirst named plain).1 loaded
    refine ⟨increasing, isFirst, fun a here => ⟨all a here, fun s inside => ?_⟩⟩
    rw [(load_eq_ok_iff.1 loaded).2]
    exact countP_listed (List.mem_flatMap.2 ⟨a, here, inside⟩)
  · intro arguments perm apart sources
    have plain' : IsPlain { r with moduleArgs := arguments } :=
      fun a here => plain a (perm.mem_iff.1 here)
    exact (load_of_relisted named relisted plain' sources).trans
      (load_of_perm named plain rfl rfl perm apart)

end

/-- A working folder with a crate of two sources. -/
def stall : Files :=
  ((Files.emptyFolder "work").putFile "src/main.rs" (some "mod till;")).putFile "src/till.rs"
    (some "")

/-- The same folders, listed in another order. -/
def stallTurned : Entry :=
  .folder [("work", .folder [("src", .folder [("till.rs", .file (some "")),
    ("main.rs", .file (some "mod till;"))])])]

/-- A request for a source by itself, and then for the crate that it lies in. -/
def stallRequest : BuildRequest where
  moduleArgs := ["src/main.rs", "."]
  dir := none
  algorithm := .rta
  includeTests := false
  tags := []

theorem load_relist_stall : stall.top.Named ∧ stall.top.Relisted stallTurned ∧
    IsPlain stallRequest ∧
    ∃ sources, load stall stallRequest = .ok sources ∧
      load (stall.relist stallTurned) stallRequest = .ok sources ∧
      ⟨"./src/main.rs", "main", "mod till;"⟩ ∈ sources ∧
      sources.countP (hasPath "././src/main.rs") = 1 := by
  have isName : Path.IsName "work" := ⟨by decide, by decide, by decide⟩
  have here : ∀ n ∈ ["work"], Path.IsName n := fun n inHere => List.mem_singleton.1 inHere ▸ isName
  have named : stall.top.Named :=
    Files.named_putFile (Files.named_putFile (Files.named_emptyFolder isName) here _ _) here _ _
  have relisted : stall.top.Relisted stallTurned :=
    @Entry.Relisted.inside [] [] "work" _ _ (@Entry.Relisted.inside [] [] "src" _ _
      (.order (List.Perm.swap _ _ [])))
  have alone : loadArgument stall stallRequest "src/main.rs" =
      .ok [⟨"./src/main.rs", "main", "mod till;"⟩] := by
    decide +kernel
  have inCrate : loadArgument stall stallRequest "." =
      .ok [⟨"././src/main.rs", "work", "mod till;"⟩, ⟨"././src/till.rs", "work::till", ""⟩] := by
    decide +kernel
  have all : ∀ a ∈ stallRequest.moduleArgs, CanLoad stall stallRequest a :=
    List.forall_mem_cons.2 ⟨canLoad_iff.2 ⟨_, alone⟩,
      List.forall_mem_singleton.2 (canLoad_iff.2 ⟨_, inCrate⟩)⟩
  have loaded : load stall stallRequest =
      .ok (listed (stallRequest.moduleArgs.flatMap (sourcesFor stall stallRequest))) :=
    load_eq_ok_iff.2 ⟨all, rfl⟩
  have plain : IsPlain stallRequest := by
    unfold IsPlain
    decide +kernel
  obtain ⟨same, known, _⟩ := load_relist named relisted plain
  obtain ⟨_, isFirst, each⟩ := known _ loaded
  refine ⟨named, relisted, plain, _, loaded, (same _).2 loaded, (isFirst _).2 ?_, ?_⟩
  · refine ⟨[], "src/main.rs", ["."], rfl, ?_, fun other early => nomatch early⟩
    rw [sourcesFor_eq alone]
    exact List.mem_singleton_self _
  · refine (each "." (by decide)).2 ⟨"././src/main.rs", "work", "mod till;"⟩ ?_
    rw [sourcesFor_eq inCrate]
    exact List.mem_cons_self

end CallGraph.Program
