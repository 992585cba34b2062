import CallGraph.Proofs.Loading

/-!
**The files of a crate.**

A folder with a folder `src` is a crate, and its sources are the files below that folder which are sources
by their names, but for those below a folder that is left out. There is one exception: of the folder `bin`
only what lies right in it is found, so a program of several files, in a folder of its own, is lost.

* `IsSourceFile` — a file that should be found; `InProgramFolder` — one in a folder of a program;
* `exists_spot`, `of_mem_crateSpots` — the files that are found are the others;
* `crate_complete_iff` — what is loaded of a crate;
* `program_folder_is_lost` — a program that is not.
-/

namespace CallGraph

theorem Entry.text_eq_ok_iff {e : Entry} {text : String} :
    e.text = .ok text ↔ e = .file (some text) := by
  cases e with
  | folder children => exact ⟨nofun, nofun⟩
  | file content =>
    cases content with
    | none => exact ⟨nofun, nofun⟩
    | some other =>
      rw [Entry.text, Except.ok.injEq, Entry.file.injEq, Option.some.injEq]

namespace Path

variable {path : String} {names others : List String}

theorem below_concat (path : String) (names : List String) (name : String) :
    below path (names ++ [name]) = join (below path names) name :=
  List.foldl_concat join path name names

/-- Different names lead to different paths. -/
theorem below_inj (isNames : ∀ n ∈ names, IsName n) (areNames : ∀ n ∈ others, IsName n)
    (equal : components (below path names) = components (below path others)) : names = others := by
  rw [components_below isNames, components_below areNames] at equal
  exact List.map_injective_iff.2 (fun _ _ => Component.name.inj) (List.append_cancel_left equal)

end Path

namespace Program

open Path (IsName)

/-! ### The files that should be found -/

/-- **A source file below a folder**: a file with the extension of sources, and no folder on the way to
it is left out. -/
structure IsSourceFile (src : Entry) (names : List String) (content : Option String) : Prop where
  found : src.at? names = some (.file content)
  extension : (names.getLast?.bind fun last => (Path.splitDot last).2) = some "rs"
  kept : ∀ n ∈ names.dropLast, ¬ IsLeftOutName n

/-- Whether names lead into a folder inside of the folder of programs. -/
def InProgramFolder (names : List String) : Prop :=
  names.head? = some "bin" ∧ 2 < names.length

instance (names : List String) : Decidable (InProgramFolder names) :=
  inferInstanceAs (Decidable (_ ∧ _))

section

variable {root crate path name : String} {e src : Entry} {s : Spot} {names : List String}
  {content : Option String} {text : String}

/-- The extension of a path is that of the last name. -/
theorem isSource_below (isNames : ∀ n ∈ names, IsName n) (nonempty : names ≠ []) (path : String) :
    isSource (Path.below path names) = true ↔
      (names.getLast?.bind fun last => (Path.splitDot last).2) = some "rs" := by
  obtain ⟨front, last, rfl⟩ := (List.eq_nil_or_concat' names).resolve_left nonempty
  have isName : IsName last := isNames last (by simp)
  rw [Path.below_concat, isSource_join isName, List.getLast?_concat, Option.bind_some, beq_iff_eq]

/-! ### The files that are found -/

/-- Right in a folder, a file that is a source by its name is found. -/
theorem exists_programSpot (named : e.Named) (isFolder : e.isFolder = true)
    (found : e.at? names = some (.file content)) (source : isSource (Path.below path names) = true)
    (short : names.length ≤ 1) :
    ∃ s ∈ programSpots path e,
      s.path = Path.below path names ∧ s.text = (Entry.file content).text := by
  cases names with
  | nil =>
    cases found
    cases isFolder
  | cons last more =>
    obtain rfl : more = [] := List.eq_nil_of_length_eq_zero (Nat.le_zero.1 (Nat.le_of_succ_le_succ short))
    obtain ⟨program, child, same⟩ := Option.bind_eq_some_iff.1 found
    cases same
    exact ⟨_, (mem_programSpots_iff named).2 ⟨last, _, child, source, rfl⟩, rfl, rfl⟩

/-- **A file that should be found is found**, unless it lies in a folder of a program. -/
theorem exists_spot (crate : String) (named : e.Named) (isFolder : e.isFolder = true)
    (stays : isLeftOut root = false) (isFile : IsSourceFile e names content)
    (outside : ¬ InProgramFolder names) :
    ∃ s ∈ crateSpots root crate e,
      s.path = Path.below root names ∧ s.text = (Entry.file content).text := by
  obtain ⟨found, extension, kept⟩ := isFile
  have isNames := (named.of_at? found).1
  cases names with
  | nil =>
    cases found
    cases isFolder
  | cons name rest =>
    have source := (isSource_below isNames (List.cons_ne_nil _ _) root).2 extension
    have stays' := ((kept_iff isNames root).2 ⟨fun _ => stays, kept⟩).2
    obtain ⟨next, first, later⟩ := Option.bind_eq_some_iff.1 found
    have inner := (named.of_child? first).2
    suffices inTop : ∃ s ∈ topSpots root crate (name, next),
        s.path = Path.below root (name :: rest) ∧ s.text = (Entry.file content).text by
      obtain ⟨s, here, same⟩ := inTop
      exact ⟨s, (mem_crateSpots_iff named).2 ⟨stays, name, next, first, here⟩, same⟩
    rw [topSpots]
    split
    · rename_i isBin
      obtain ⟨isFolder, isBin⟩ := Bool.and_eq_true_iff.1 isBin
      -- Outside of the folders in `bin` there is one name left, that of a program.
      have short : rest.length ≤ 1 := by
        by_contra long
        refine outside ⟨congrArg some (of_decide_eq_true isBin), ?_⟩
        rw [List.length_cons]
        omega
      exact exists_programSpot inner isFolder later source short
    · exact ⟨_, (mem_spots_iff inner).2 ⟨rest, content, later, stays', source, rfl⟩, rfl, rfl⟩

/-- What is found right in a folder and can be read is a file that lies there. -/
theorem of_mem_programSpots (named : e.Named) (here : s ∈ programSpots path e)
    (readable : s.text = .ok text) :
    ∃ last, e.at? [last] = some (.file (some text)) ∧ isSource (Path.join path last) = true ∧
      s.path = Path.join path last := by
  obtain ⟨last, program, child, source, rfl⟩ := (mem_programSpots_iff named).1 here
  have isFile : program = .file (some text) := Entry.text_eq_ok_iff.1 readable
  exact ⟨last, Option.bind_eq_some_iff.2 ⟨program, child, congrArg some isFile⟩, source, rfl⟩

/-- **Nothing else is found** that can be read. -/
theorem of_mem_crateSpots (named : e.Named) (here : s ∈ crateSpots root crate e)
    (readable : s.text = .ok text) :
    ∃ names, IsSourceFile e names (some text) ∧ ¬ InProgramFolder names ∧
      s.path = Path.below root names := by
  obtain ⟨stays, name, next, first, here⟩ := (mem_crateSpots_iff named).1 here
  have inner := (named.of_child? first).2
  rw [topSpots] at here
  split at here
  · rename_i isBin
    have isBin : name = "bin" := of_decide_eq_true (Bool.and_eq_true_iff.1 isBin).2
    obtain ⟨last, later, source, path⟩ := of_mem_programSpots inner here readable
    have found : e.at? [name, last] = some (.file (some text)) :=
      Option.bind_eq_some_iff.2 ⟨next, first, later⟩
    have isNames := (named.of_at? found).1
    refine ⟨[name, last], ⟨found, ?_, fun n inside => ?_⟩, ?_, path⟩
    · exact (isSource_below isNames (List.cons_ne_nil _ _) root).1 source
    · rw [List.mem_singleton.1 inside, isBin]
      exact fun leftOut => leftOut.elim (by decide) (by decide)
    · exact fun inFolder => absurd inFolder.2 (by decide : ¬ 2 < 2)
  · rename_i notBin
    obtain ⟨rest, content, later, kept, source, rfl⟩ := (mem_spots_iff inner).1 here
    have same : content = some text := Entry.file.inj (Entry.text_eq_ok_iff.1 readable)
    subst same
    have found : e.at? (name :: rest) = some (.file (some text)) :=
      Option.bind_eq_some_iff.2 ⟨next, first, later⟩
    have isNames := (named.of_at? found).1
    refine ⟨name :: rest, ⟨found, ?_, ((kept_iff isNames root).1 ⟨stays, kept⟩).2⟩, ?_, rfl⟩
    · exact (isSource_below isNames (List.cons_ne_nil _ _) root).1 source
    · -- What has the name `bin` here is a file, and nothing lies inside of it.
      rintro ⟨isBin, long⟩
      have isBin : name = "bin" := Option.some.inj isBin
      cases next with
      | folder children => exact notBin (by simp [isBin, Entry.isFolder])
      | file other =>
        cases rest with
        | nil => exact absurd long (by decide : ¬ 2 < 1)
        | cons _ _ => cases later

/-! ### What is loaded of a crate -/

variable {fs : Files} {r : BuildRequest} {argument : String} {folder : Entry}
  {sources : List SourceFile}

theorem isFolder_of_childFolder? (found : childFolder? folder name = some src) :
    folder.isFolder = true ∧ src.isFolder = true := by
  obtain ⟨child, isFolder⟩ := Option.filter_eq_some_iff.1 found
  refine ⟨?_, isFolder⟩
  cases folder with
  | file content => cases child
  | folder children => rfl

/-- A crate stands for the files below its folder of sources, and for its tests. -/
theorem argumentSpots_of_crate {found : List Spot} (entry : fs.entry (pathOf r argument) = .ok folder)
    (hasSources : childFolder? folder "src" = some src)
    (given : argumentSpots fs r argument = .ok found) :
    ∃ crate, found = crateSpots (Path.join (pathOf r argument) "src") crate src ++
      testSpots r.includeTests (pathOf r argument) folder := by
  obtain ⟨e, entry', given⟩ := argumentSpots_eq_ok_iff.1 given
  cases entry.symm.trans entry'
  have isFolder := (isFolder_of_childFolder? hasSources).1
  rw [isFolder, if_pos rfl] at given
  obtain ⟨folder', crate, entry', _, rfl⟩ := given
  cases entry.symm.trans entry'
  refine ⟨crate, ?_⟩
  unfold folderSpots
  rw [hasSources]

/-- A crate whose sources are loaded is read as a folder. -/
theorem plain_of_crate (entry : fs.entry (pathOf r argument) = .ok folder)
    (hasSources : childFolder? folder "src" = some src) (loads : CanLoad fs r argument) :
    isManifest (pathOf r argument) = false :=
  isManifest_of_folder entry (isFolder_of_childFolder? hasSources).1 loads

section

variable (named : fs.top.Named) (entry : fs.entry (pathOf r argument) = .ok folder)
  (hasSources : childFolder? folder "src" = some src) (loads : CanLoad fs r argument)

include named entry hasSources loads

/-- What is loaded from below the source folder is a source file, and lies in no folder of a program. -/
theorem exists_source_of_mem {file : SourceFile} (here : file ∈ sourcesFor fs r argument)
    (below : Path.components (Path.join (pathOf r argument) "src") <+: Path.components file.path) :
    ∃ names, IsSourceFile src names (some file.content) ∧ ¬ InProgramFolder names ∧
      file.path = Path.below (Path.join (pathOf r argument) "src") names := by
  obtain ⟨found, given, all⟩ := (loadArgument_eq_ok_iff (plain_of_crate entry hasSources loads)).1 loads
  obtain ⟨crate, rfl⟩ := argumentSpots_of_crate entry hasSources given
  have known := Files.named_of_entry named entry
  obtain ⟨isName, inner⟩ := named_of_childFolder? known hasSources
  obtain ⟨s, mem, read⟩ := (mem_of_mapM all).1 here
  obtain ⟨path, _, text⟩ := Spot.read_eq_ok_iff.1 read
  rw [path] at below ⊢
  rcases List.mem_append.1 mem with inSources | inTests
  · exact of_mem_crateSpots inner inSources text
  · -- The tests lie below another folder.
    obtain ⟨_, tests, hasTests, inTests⟩ := mem_testSpots_iff.1 inTests
    obtain ⟨isName', inner'⟩ := named_of_childFolder? known hasTests
    have elsewhere := prefix_of_mem_programSpots inner' inTests
    exact absurd (Path.name_eq_of_prefix isName isName' below elsewhere) (by decide)

/-- Every other source file is loaded. -/
theorem exists_mem_of_source {names : List String} {content : Option String}
    (isFile : IsSourceFile src names content) (outside : ¬ InProgramFolder names) :
    ∃ file ∈ sourcesFor fs r argument, content = some file.content ∧
      file.path = Path.below (Path.join (pathOf r argument) "src") names := by
  obtain ⟨found, given, all⟩ := (loadArgument_eq_ok_iff (plain_of_crate entry hasSources loads)).1 loads
  obtain ⟨crate, rfl⟩ := argumentSpots_of_crate entry hasSources given
  obtain ⟨isName, inner⟩ := named_of_childFolder? (Files.named_of_entry named entry) hasSources
  have isFolder := (isFolder_of_childFolder? hasSources).2
  have stays : isLeftOut (Path.join (pathOf r argument) "src") = false :=
    (isLeftOut_join isName _).2 fun leftOut => leftOut.elim (by decide) (by decide)
  obtain ⟨s, here, path, text⟩ := exists_spot crate inner isFolder stays isFile outside
  have mem := List.mem_append_left (testSpots r.includeTests (pathOf r argument) folder) here
  obtain ⟨file, read⟩ := returns_of_mapM all mem
  obtain ⟨path', _, readable⟩ := Spot.read_eq_ok_iff.1 read
  rw [text, Entry.text_eq_ok_iff, Entry.file.injEq] at readable
  exact ⟨file, (mem_of_mapM all).2 ⟨s, mem, read⟩, readable, path'.trans path⟩

end

/-- **What is loaded of a crate.** Each file below its source folder that is a source by its name, with no
folder on the way left out, is loaded if and only if it does not lie in a folder of a program; nothing
else below that folder is; and every path is loaded once. -/
theorem crate_complete_iff (named : fs.top.Named) (asked : argument ∈ r.moduleArgs)
    (entry : fs.entry (pathOf r argument) = .ok folder)
    (hasSources : childFolder? folder "src" = some src) (loaded : load fs r = .ok sources) :
    (∀ names content, IsSourceFile src names content →
      ((∃ s ∈ sourcesFor fs r argument, content = some s.content ∧
          s.path = Path.below (Path.join (pathOf r argument) "src") names) ↔
        ¬ InProgramFolder names)) ∧
      (∀ s ∈ sourcesFor fs r argument,
        Path.components (Path.join (pathOf r argument) "src") <+: Path.components s.path →
          ∃ names, IsSourceFile src names (some s.content) ∧ ¬ InProgramFolder names ∧
            s.path = Path.below (Path.join (pathOf r argument) "src") names) ∧
      (∀ s ∈ sourcesFor fs r argument, sources.countP (hasPath s.path) = 1) ∧
      (r.moduleArgs = [argument] → ∀ s, s ∈ sources ↔ s ∈ sourcesFor fs r argument) := by
  obtain ⟨each, rfl⟩ := load_eq_ok_iff.1 loaded
  have loads := each argument asked
  obtain ⟨_, inner⟩ := named_of_childFolder? (Files.named_of_entry named entry) hasSources
  have others : ∀ s ∈ sourcesFor fs r argument, _ := fun s here =>
    exists_source_of_mem named entry hasSources loads here
  refine ⟨fun names content isFile => ⟨?_, exists_mem_of_source named entry hasSources loads isFile⟩,
    others, fun s here => ?_, ?_⟩
  · rintro ⟨s, here, _, path⟩
    have isNames := (inner.of_at? isFile.found).1
    have below : Path.components (Path.join (pathOf r argument) "src") <+:
        Path.components s.path := by
      rw [path, Path.components_below isNames]
      exact List.prefix_append _ _
    obtain ⟨names', isFile', outside, path'⟩ := others s here below
    have areNames := (inner.of_at? isFile'.found).1
    rw [Path.below_inj isNames areNames (congrArg Path.components (path.symm.trans path'))]
    exact outside
  · exact countP_listed (List.mem_flatMap.2 ⟨argument, asked, here⟩)
  · intro only s
    have differ : ∀ a ∈ r.moduleArgs, PathsDiffer (sourcesFor fs r a) := fun a here => by
      rw [only] at here
      rw [List.mem_singleton.1 here]
      exact pathsDiffer_sourcesFor named (plain_of_crate entry hasSources loads)
    have apart : Apart [argument] (sourcesFor fs r) := List.pairwise_singleton _ _
    rw [mem_listed_flatMap_iff differ, only, apart.isFirst_iff]
    simp

end

/-! ### A program of several files -/

/-- The sources of a crate with a program in a folder of its own. -/
def toolboxSource : Entry :=
  .folder [("main.rs", .file (some "")),
    ("bin", .folder [("tool", .folder [("main.rs", .file (some ""))])])]

/-- The crate in a working folder. -/
def toolbox : Files :=
  ((Files.emptyFolder "work").putFile "app/src/main.rs" (some "")).putFile
    "app/src/bin/tool/main.rs" (some "")

/-- A request for the crate. -/
def toolboxRequest : BuildRequest where
  moduleArgs := ["app"]
  dir := none
  algorithm := .rta
  includeTests := false
  tags := []

/-- The program is a source file of the crate. -/
theorem isSourceFile_tool : IsSourceFile toolboxSource ["bin", "tool", "main.rs"] (some "") where
  found := rfl
  extension := by decide +kernel
  kept n here := by
    rw [IsLeftOutName]
    revert n
    decide

theorem load_toolbox :
    load toolbox toolboxRequest = .ok [⟨"./app/src/main.rs", "app", ""⟩] := by
  have read : loadArgument toolbox toolboxRequest "app" = .ok [⟨"./app/src/main.rs", "app", ""⟩] := by
    decide +kernel
  refine load_eq_ok_iff.2 ⟨List.forall_mem_singleton.2 (canLoad_iff.2 ⟨_, read⟩), ?_⟩
  show _ = listed (["app"].flatMap (sourcesFor toolbox toolboxRequest))
  rw [List.flatMap_singleton, sourcesFor_eq read, listed, List.mergeSort_singleton]
  rfl

/-- **A program of several files is lost**: the folder of its crate is asked for and loaded, and the file
lies below its source folder, but it is not in the result. -/
theorem program_folder_is_lost :
    toolbox.entry (pathOf toolboxRequest "app") = .ok (.folder [("src", toolboxSource)]) ∧
      IsSourceFile toolboxSource ["bin", "tool", "main.rs"] (some "") ∧
      ∃ sources, load toolbox toolboxRequest = .ok sources ∧
        sources.countP (hasPath "./app/src/bin/tool/main.rs") = 0 :=
  ⟨rfl, isSourceFile_tool, _, load_toolbox, by decide +kernel⟩

theorem crate_complete_iff_toolbox : toolbox.top.Named ∧ "app" ∈ toolboxRequest.moduleArgs ∧
    toolbox.entry (pathOf toolboxRequest "app") = .ok (.folder [("src", toolboxSource)]) ∧
    childFolder? (.folder [("src", toolboxSource)]) "src" = some toolboxSource ∧
    load toolbox toolboxRequest = .ok [⟨"./app/src/main.rs", "app", ""⟩] ∧
    ¬ ∃ s ∈ sourcesFor toolbox toolboxRequest "app", some "" = some s.content ∧
      s.path = "./app/src/bin/tool/main.rs" := by
  have isName : IsName "work" := ⟨by decide, by decide, by decide⟩
  have here : ∀ n ∈ ["work"], IsName n := fun n inHere => List.mem_singleton.1 inHere ▸ isName
  have named : toolbox.top.Named :=
    Files.named_putFile (Files.named_putFile (Files.named_emptyFolder isName) here _ _) here _ _
  have asked : "app" ∈ toolboxRequest.moduleArgs := List.mem_singleton_self _
  have known := crate_complete_iff named asked rfl rfl load_toolbox
  refine ⟨named, asked, rfl, rfl, load_toolbox, fun found => ?_⟩
  exact (known.1 _ _ isSourceFile_tool).1 found (by decide)

end Program

end CallGraph
