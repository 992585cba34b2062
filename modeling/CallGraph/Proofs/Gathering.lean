import CallGraph.Program.Sources
import CallGraph.Proofs.Relisting
import Mathlib.Data.List.Forall2
import Mathlib.Data.List.Perm.Basic

/-!
**Sources before they are read.**

Loading reads each source as it finds it. The two come apart: what is found hangs on the tree alone, and
loading reads it from the first to the last. What is found is known by the files that lie in the tree,
so it is found once, and it does not hang on the order in which folders are listed.

* `Spot` — a source that is found; `spots`, `crateSpots`, `folderSpots`, `argumentSpots` — what is found;
* `loadArgument_eq_ok_iff` — an argument that is no manifest stands for what is found, read;
* `mem_spots_iff` — a file is found unless a folder on the way is left out;
* `mem_programSpots_iff`, `mem_crateSpots_iff` — what is found right in a folder, and in a source folder;
* `nodup_argumentSpots` — nothing is found twice;
* `perm_argumentSpots` — what is found if folders are listed in another order.
-/

namespace CallGraph.Program

open Path (IsName)

/-! ### One call after the other -/

section

variable {α β γ ε : Type} {f : α → Except ε β} {xs others : List α} {ys : List β}

/-- **Calls that all return**, each of them a value. -/
theorem mapM_eq_ok_iff :
    xs.mapM f = .ok ys ↔ List.Forall₂ (fun x y => f x = .ok y) xs ys := by
  induction xs generalizing ys with
  | nil =>
    rw [List.mapM_nil, List.forall₂_nil_left_iff]
    exact ⟨fun same => (Except.ok.inj same).symm, fun same => same ▸ rfl⟩
  | cons x rest hyp =>
    rw [List.mapM_cons, List.forall₂_cons_left_iff]
    cases first : f x with
    | error fault => exact ⟨nofun, fun ⟨_, _, returned, _⟩ => nomatch returned⟩
    | ok y =>
      cases later : rest.mapM f with
      | error fault =>
        refine ⟨nofun, fun ⟨_, zs, _, returned, _⟩ => ?_⟩
        rw [hyp.2 returned] at later
        cases later
      | ok zs =>
        refine ⟨fun same => ⟨y, zs, rfl, hyp.1 later, (Except.ok.inj same).symm⟩, ?_⟩
        rintro ⟨y', zs', returned, others, rfl⟩
        cases returned
        rw [hyp.2 others] at later
        cases later
        rfl

/-- The order of the calls is the order of what they return. -/
theorem perm_of_mapM (perm : xs.Perm others) (all : xs.mapM f = .ok ys) :
    ∃ zs, others.mapM f = .ok zs ∧ ys.Perm zs := by
  obtain ⟨zs, returned, same⟩ := List.perm_comp_forall₂ perm.symm (mapM_eq_ok_iff.1 all)
  exact ⟨zs, mapM_eq_ok_iff.2 returned, same.symm⟩

/-- What is returned is what one of the calls returns. -/
theorem mem_of_mapM {y : β} (all : xs.mapM f = .ok ys) : y ∈ ys ↔ ∃ x ∈ xs, f x = .ok y := by
  have each := mapM_eq_ok_iff.1 all
  clear all
  induction each with
  | nil => simp
  | cons first _ hyp =>
    rw [List.mem_cons, List.exists_mem_cons_iff, first, Except.ok.injEq]
    exact or_congr eq_comm hyp

theorem returns_of_mapM {x : α} (all : xs.mapM f = .ok ys) (here : x ∈ xs) :
    ∃ y, f x = .ok y := by
  have each := mapM_eq_ok_iff.1 all
  clear all
  induction each with
  | nil => cases here
  | cons first _ hyp =>
    rcases List.mem_cons.1 here with rfl | later
    · exact ⟨_, first⟩
    · exact hyp later

/-- Lists of calls one after the other. -/
theorem mapM_flatMap (g : γ → List α) (cs : List γ) :
    (cs.flatMap g).mapM f = List.flatten <$> cs.mapM fun c => (g c).mapM f := by
  induction cs with
  | nil => rfl
  | cons c rest hyp =>
    rw [List.flatMap_cons, List.mapM_append, List.mapM_cons, hyp]
    cases (g c).mapM f with
    | error fault => rfl
    | ok ys => cases rest.mapM fun c => (g c).mapM f <;> rfl

end

/-! ### What is found -/

/-- A source that is found: its path, its module, and what reading it gives. -/
structure Spot where
  path : String
  modulePath : String
  text : Except IoFault String

namespace Spot

/-- Reads a source. -/
def read (s : Spot) : Except LoadFailure SourceFile :=
  match s.text with
  | .ok content => .ok ⟨s.path, s.modulePath, content⟩
  | .error fault => .error (.unreadableFile s.path fault)

/-- What the path of a source is made of. -/
def steps (s : Spot) : List Path.Component :=
  Path.components s.path

variable {s : Spot} {file : SourceFile}

theorem read_eq_ok_iff : s.read = .ok file ↔
    file.path = s.path ∧ file.modulePath = s.modulePath ∧ s.text = .ok file.content := by
  obtain ⟨path, modulePath, text⟩ := s
  obtain ⟨path', modulePath', content⟩ := file
  cases text with
  | error fault => exact ⟨nofun, fun ⟨_, _, returned⟩ => nomatch returned⟩
  | ok content' =>
    simp only [read, Except.ok.injEq, SourceFile.mk.injEq]
    constructor <;> (rintro ⟨rfl, rfl, rfl⟩; exact ⟨rfl, rfl, rfl⟩)

end Spot

/-- A file of a crate whose sources lie in `root`. -/
def spotAt (root crate path : String) (content : Option String) : Spot :=
  ⟨path, moduleOf root path crate, (Entry.file content).text⟩

mutual

/-- The sources in an entry. -/
def spots (root crate path : String) : Entry → List Spot
  | .file content => if isSource path then [spotAt root crate path content] else []
  | .folder children => if isLeftOut path then [] else spotsAmong root crate path children

/-- The sources in some entries of the folder at `path`. -/
def spotsAmong (root crate path : String) : List (String × Entry) → List Spot
  | [] => []
  | (name, e) :: rest =>
    spots root crate (Path.join path name) e ++ spotsAmong root crate path rest

end

/-- An entry of a folder of programs, if it is a source. It is a crate of its own. -/
def programSpot (path : String) (c : String × Entry) : List Spot :=
  if isSource (Path.join path c.1) then
    [⟨Path.join path c.1, ownCrate (Path.join path c.1), c.2.text⟩]
  else []

/-- The sources right in a folder. -/
def programSpots (path : String) (folder : Entry) : List Spot :=
  folder.children.flatMap (programSpot path)

/-- The sources in an entry of a source folder. -/
def topSpots (root crate : String) (c : String × Entry) : List Spot :=
  if c.2.isFolder && c.1 = "bin" then programSpots (Path.join root c.1) c.2
  else spots root crate (Path.join root c.1) c.2

/-- The sources in a source folder. -/
def crateSpots (root crate : String) (folder : Entry) : List Spot :=
  if isLeftOut root then [] else folder.children.flatMap (topSpots root crate)

/-- The tests of a folder, if they are wanted. -/
def testSpots (includeTests : Bool) (path : String) (folder : Entry) : List Spot :=
  match childFolder? folder "tests" with
  | some tests => if includeTests then programSpots (Path.join path "tests") tests else []
  | none => []

/-- The sources that a folder stands for. -/
def folderSpots (includeTests : Bool) (crate path : String) (folder : Entry) : List Spot :=
  match childFolder? folder "src" with
  | none => crateSpots path crate folder
  | some src => crateSpots (Path.join path "src") crate src ++ testSpots includeTests path folder

/-- The sources that an argument stands for, unless it is a manifest. -/
def argumentSpots (fs : Files) (r : BuildRequest) (argument : String) :
    Except LoadFailure (List Spot) := do
  let path := pathOf r argument
  match fs.entry path with
  | .error _ => throw (.argumentNotFound argument path)
  | .ok e =>
    if e.isFolder then return folderSpots r.includeTests (← crateName fs path e) path e
    else return [⟨path, ownCrate path, e.text⟩]

/-- What a folder at a path stands for, if its crate has a name. -/
def InFolder (fs : Files) (includeTests : Bool) (path : String) (found : List Spot) : Prop :=
  ∃ folder crate, fs.entry path = .ok folder ∧ crateName fs path folder = .ok crate ∧
    found = folderSpots includeTests crate path folder

section

variable {root crate path name : String} {e e' folder folder' : Entry} {s : Spot}
  {children : List (String × Entry)} {names : List String} {content : Option String}

theorem spotsAmong_eq (root crate path : String) (children : List (String × Entry)) :
    spotsAmong root crate path children =
      children.flatMap fun c => spots root crate (Path.join path c.1) c.2 := by
  induction children with
  | nil => rw [spotsAmong, List.flatMap_nil]
  | cons c rest hyp => rw [spotsAmong, hyp, List.flatMap_cons]

/-! ### Loading reads what is found -/

theorem readSource_eq (path modulePath : String) (e : Entry) :
    readSource path modulePath e = Spot.read ⟨path, modulePath, e.text⟩ := by
  unfold readSource Spot.read
  cases e.text <;> rfl

mutual

theorem collect_eq (root crate path : String) (e : Entry) :
    collect root crate path e = (spots root crate path e).mapM Spot.read := by
  match e with
  | .file content =>
    rw [collect, spots, readSource_eq]
    split
    · rw [List.mapM_cons, List.mapM_nil]
      show Except.map _ (Spot.read (spotAt root crate path content)) = _
      cases Spot.read (spotAt root crate path content) <;> rfl
    · rfl
  | .folder children =>
    rw [collect, spots]
    split
    · rfl
    · exact collectAll_eq root crate path children

theorem collectAll_eq (root crate path : String) (children : List (String × Entry)) :
    collectAll root crate path children = (spotsAmong root crate path children).mapM Spot.read := by
  match children with
  | [] => rw [collectAll, spotsAmong, List.mapM_nil]; rfl
  | (name, e) :: rest =>
    rw [collectAll, spotsAmong, List.mapM_append, collect_eq root crate _ e,
      collectAll_eq root crate path rest]

end

theorem programs_eq (path : String) (folder : Entry) :
    programs path folder.children = (programSpots path folder).mapM Spot.read := by
  unfold programs programSpots
  induction folder.children with
  | nil => rfl
  | cons c rest hyp =>
    rw [List.flatMap_cons, List.mapM_append, programSpot, ← hyp, List.filter_cons]
    dsimp only
    by_cases source : isSource (Path.join path c.1) = true
    · rw [if_pos source, if_pos source, List.mapM_cons, List.mapM_cons, List.mapM_nil, readSource_eq,
        bind_assoc]
      rfl
    · rw [if_neg source, if_neg source, List.mapM_nil, pure_bind]
      exact (bind_pure _).symm

theorem below_eq (root crate : String) (folder : Entry) :
    below root crate folder = (crateSpots root crate folder).mapM Spot.read := by
  have top : ∀ c : String × Entry,
      collectTop root crate c.1 c.2 = (topSpots root crate c).mapM Spot.read := by
    intro c
    rw [collectTop, topSpots]
    split
    · exact programs_eq _ _
    · exact collect_eq _ _ _ _
  unfold below crateSpots
  split
  · rfl
  · rw [mapM_flatMap]
    exact congrArg (fun f => List.flatten <$> List.mapM f _) (funext top)

theorem loadFolder_eq (fs : Files) (includeTests : Bool) (path : String) (folder : Entry) :
    loadFolder fs includeTests path folder = (do
      (folderSpots includeTests (← crateName fs path folder) path folder).mapM Spot.read) := by
  unfold loadFolder folderSpots testSpots
  refine congrArg _ (funext fun crate => ?_)
  cases childFolder? folder "src" with
  | none => exact below_eq _ _ _
  | some src =>
    dsimp only
    rw [List.mapM_append, below_eq]
    refine congrArg _ (funext fun sources => ?_)
    cases childFolder? folder "tests" with
    | none => exact congrArg pure (List.append_nil _).symm
    | some tests =>
      dsimp only
      split
      · rw [programs_eq]
      · exact congrArg pure (List.append_nil _).symm

/-- An argument that is no manifest stands for what is found, read. -/
theorem loadArgument_eq {fs : Files} {r : BuildRequest} {argument : String}
    (plain : isManifest (pathOf r argument) = false) :
    loadArgument fs r argument = (do (← argumentSpots fs r argument).mapM Spot.read) := by
  unfold loadArgument argumentSpots
  dsimp only
  rw [plain]
  cases fs.entry (pathOf r argument) with
  | error fault => rfl
  | ok e =>
    dsimp only
    rw [if_neg Bool.false_ne_true]
    split
    · rw [loadFolder_eq, bind_assoc]
      rfl
    · rw [readSource_eq, pure_bind, List.mapM_cons, List.mapM_nil]
      rfl

/-- **An argument stands for what is found, read.** -/
theorem loadArgument_eq_ok_iff {fs : Files} {r : BuildRequest} {argument : String}
    {sources : List SourceFile} (plain : isManifest (pathOf r argument) = false) :
    loadArgument fs r argument = .ok sources ↔
      ∃ found, argumentSpots fs r argument = .ok found ∧ found.mapM Spot.read = .ok sources := by
  rw [loadArgument_eq plain]
  cases argumentSpots fs r argument with
  | error fault => exact ⟨nofun, fun ⟨_, given, _⟩ => nomatch given⟩
  | ok found => simp only [Except.ok.injEq, exists_eq_left']; rfl

/-- **A folder is read as a folder.** The build tool takes none for a manifest. -/
theorem isManifest_of_folder {fs : Files} {r : BuildRequest} {argument : String} {folder : Entry}
    {sources : List SourceFile} (entry : fs.entry (pathOf r argument) = .ok folder)
    (isFolder : folder.isFolder = true) (read : loadArgument fs r argument = .ok sources) :
    isManifest (pathOf r argument) = false := by
  rw [Bool.eq_false_iff]
  intro manifest
  unfold loadArgument loadWorkspace at read
  simp only [entry] at read
  rw [if_pos manifest, if_pos isFolder] at read
  cases read

/-- **What an argument stands for**: a folder or a file. -/
theorem argumentSpots_eq_ok_iff {fs : Files} {r : BuildRequest} {argument : String}
    {found : List Spot} : argumentSpots fs r argument = .ok found ↔
      ∃ e, fs.entry (pathOf r argument) = .ok e ∧
        if e.isFolder then InFolder fs r.includeTests (pathOf r argument) found
        else found = [⟨pathOf r argument, ownCrate (pathOf r argument), e.text⟩] := by
  unfold argumentSpots InFolder
  dsimp only
  cases fs.entry (pathOf r argument) with
  | error fault => exact ⟨nofun, fun ⟨_, given, _⟩ => nomatch given⟩
  | ok e =>
    simp only [Except.ok.injEq, exists_and_left, exists_eq_left']
    split
    · cases crateName fs (pathOf r argument) e with
      | error fault => exact ⟨nofun, fun ⟨_, given, _⟩ => nomatch given⟩
      | ok crate =>
        simp only [Except.ok.injEq, exists_eq_left']
        exact ⟨fun same => (Except.ok.inj same).symm, fun same => same ▸ rfl⟩
    · exact ⟨fun same => (Except.ok.inj same).symm, fun same => same ▸ rfl⟩

/-! ### The files that are found -/

/-- No folder on the way from `path` on is left out. -/
def Kept : String → List String → Prop
  | _, [] => True
  | path, name :: rest => isLeftOut path = false ∧ Kept (Path.join path name) rest

/-- Whether the names of folders stand for what is built, or kept by version control. -/
def IsLeftOutName (name : String) : Prop :=
  name = "target" ∨ name = ".git"

theorem isLeftOut_join (isName : IsName name) (path : String) :
    isLeftOut (Path.join path name) = false ↔ ¬ IsLeftOutName name := by
  rw [isLeftOut, Path.endsWith_join isName, Path.endsWith_join isName, IsLeftOutName]
  simp

theorem isSource_join (isName : IsName name) (path : String) :
    isSource (Path.join path name) = ((Path.splitDot name).2 == some "rs") := by
  rw [isSource, Path.extension?_join isName]

/-- **Only the names of the folders on the way count.** -/
theorem kept_iff (isNames : ∀ n ∈ names, IsName n) (path : String) :
    Kept path names ↔
      (names ≠ [] → isLeftOut path = false) ∧ ∀ n ∈ names.dropLast, ¬ IsLeftOutName n := by
  induction names generalizing path with
  | nil => simp [Kept]
  | cons name rest hyp =>
    obtain ⟨isName, others⟩ := List.forall_mem_cons.1 isNames
    rw [Kept, hyp others, isLeftOut_join isName]
    by_cases last : rest = []
    · simp [last]
    · simp [List.dropLast_cons_of_ne_nil last, last]

/-- **A file is found** if it is a source by its name and no folder on the way is left out. -/
theorem mem_spots_iff (named : e.Named) : s ∈ spots root crate path e ↔
    ∃ names content, e.at? names = some (.file content) ∧ Kept path names ∧
      isSource (Path.below path names) = true ∧
      s = spotAt root crate (Path.below path names) content := by
  induction named generalizing path with
  | ofFile content =>
    rw [spots]
    constructor
    · intro here
      split at here
      · rename_i source
        exact ⟨[], content, rfl, trivial, source, List.mem_singleton.1 here⟩
      · cases here
    · rintro ⟨names, other, found, _, source, rfl⟩
      cases names with
      | nil =>
        cases found
        have source : isSource path = true := source
        rw [if_pos source]
        exact List.mem_singleton_self _
      | cons name rest => cases found
  | @ofFolder children distinct isNames inner hyp =>
    have named : (Entry.folder children).Named := .ofFolder distinct isNames inner
    rw [spots]
    constructor
    · intro here
      split at here
      · cases here
      · rename_i stays
        rw [spotsAmong_eq] at here
        obtain ⟨c, listed, inside⟩ := List.mem_flatMap.1 here
        obtain ⟨names, content, found, kept, source, same⟩ := (hyp c listed).1 inside
        have first := named.child?_iff.2 listed
        exact ⟨c.1 :: names, content, Option.bind_eq_some_iff.2 ⟨c.2, first, found⟩,
          ⟨Bool.eq_false_of_not_eq_true stays, kept⟩, source, same⟩
    · rintro ⟨names, content, found, kept, source, same⟩
      cases names with
      | nil => cases found
      | cons name rest =>
        obtain ⟨next, first, later⟩ := Option.bind_eq_some_iff.1 found
        have listed := named.child?_iff.1 first
        rw [kept.1, if_neg Bool.false_ne_true, spotsAmong_eq]
        exact List.mem_flatMap.2 ⟨(name, next), listed,
          (hyp _ listed).2 ⟨rest, content, later, kept.2, source, same⟩⟩

/-- **Right in a folder** the files are found that are sources by their names. -/
theorem mem_programSpots_iff (named : e.Named) : s ∈ programSpots path e ↔
    ∃ name program, e.child? name = some program ∧ isSource (Path.join path name) = true ∧
      s = ⟨Path.join path name, ownCrate (Path.join path name), program.text⟩ := by
  rw [programSpots, List.mem_flatMap, Prod.exists]
  refine exists_congr fun name => exists_congr fun program => and_congr named.child?_iff.symm ?_
  rw [programSpot]
  split
  · rename_i source
    rw [List.mem_singleton, and_iff_right source]
  · rename_i other
    exact iff_of_false List.not_mem_nil fun known => other known.1

/-- In a source folder the entries are looked through one by one. -/
theorem mem_crateSpots_iff (named : e.Named) : s ∈ crateSpots root crate e ↔
    isLeftOut root = false ∧
      ∃ name next, e.child? name = some next ∧ s ∈ topSpots root crate (name, next) := by
  have among : s ∈ e.children.flatMap (topSpots root crate) ↔
      ∃ name next, e.child? name = some next ∧ s ∈ topSpots root crate (name, next) := by
    rw [List.mem_flatMap, Prod.exists]
    exact exists_congr fun name => exists_congr fun next => and_congr_left fun _ =>
      named.child?_iff.symm
  rw [crateSpots]
  split
  · rename_i leftOut
    rw [leftOut]
    simp
  · rename_i stays
    rw [among, and_iff_right (Bool.eq_false_of_not_eq_true stays)]

/-! ### Nothing is found twice -/

/-- What is found in an entry lies below it. -/
theorem prefix_of_mem_spots (named : e.Named) (here : s ∈ spots root crate path e) :
    Path.components path <+: s.steps := by
  obtain ⟨names, content, found, _, _, rfl⟩ := (mem_spots_iff named).1 here
  rw [Spot.steps, spotAt, Path.components_below (named.of_at? found).1]
  exact List.prefix_append _ _

theorem prefix_of_mem_programSpot {c : String × Entry} (here : s ∈ programSpot path c) :
    Path.components (Path.join path c.1) <+: s.steps := by
  rw [programSpot] at here
  split at here
  · rw [List.mem_singleton.1 here]
    exact List.prefix_rfl
  · cases here

/-- **What is found in different entries of a folder is different.** -/
theorem nodup_flatMap_children {g : String × Entry → List Spot} (named : e.Named)
    (inside : ∀ c ∈ e.children, ∀ s ∈ g c, Path.components (Path.join path c.1) <+: s.steps)
    (each : ∀ c ∈ e.children, ((g c).map Spot.steps).Nodup) :
    ((e.children.flatMap g).map Spot.steps).Nodup := by
  rw [List.map_flatMap, List.nodup_flatMap]
  refine ⟨each, ?_⟩
  cases named with
  | ofFile content => exact List.Pairwise.nil
  | @ofFolder children distinct isNames _ =>
    refine (List.pairwise_map.1 distinct).imp_of_mem fun {c d} listed listed' differ => ?_
    rw [Function.onFun, List.disjoint_iff_ne]
    intro steps here steps' here' same
    obtain ⟨s, mem, rfl⟩ := List.mem_map.1 here
    obtain ⟨t, mem', rfl⟩ := List.mem_map.1 here'
    exact differ (Path.name_eq_of_prefix (isNames c listed) (isNames d listed')
      (inside c listed s mem) (same ▸ inside d listed' t mem'))

theorem nodup_spots (named : e.Named) : ((spots root crate path e).map Spot.steps).Nodup := by
  induction named generalizing path with
  | ofFile content =>
    rw [spots]
    split
    · exact List.nodup_singleton _
    · exact List.nodup_nil
  | @ofFolder children distinct isNames inner hyp =>
    have named : (Entry.folder children).Named := .ofFolder distinct isNames inner
    rw [spots]
    split
    · exact List.nodup_nil
    · rw [spotsAmong_eq]
      exact nodup_flatMap_children named (fun c listed s => prefix_of_mem_spots (inner c listed))
        fun c listed => hyp c listed

theorem nodup_programSpots (named : e.Named) : ((programSpots path e).map Spot.steps).Nodup := by
  refine nodup_flatMap_children named (fun c _ s => prefix_of_mem_programSpot) fun c _ => ?_
  rw [programSpot]
  split
  · exact List.nodup_singleton _
  · exact List.nodup_nil

theorem prefix_of_mem_programSpots (named : e.Named) (here : s ∈ programSpots path e) :
    Path.components path <+: s.steps := by
  obtain ⟨c, listed, mem⟩ := List.mem_flatMap.1 here
  have inside := prefix_of_mem_programSpot mem
  rw [Path.components_join (named.isName listed)] at inside
  exact (List.prefix_append _ _).trans inside

theorem prefix_of_mem_topSpots {c : String × Entry} (named : c.2.Named)
    (here : s ∈ topSpots root crate c) : Path.components (Path.join root c.1) <+: s.steps := by
  rw [topSpots] at here
  split at here
  · exact prefix_of_mem_programSpots named here
  · exact prefix_of_mem_spots named here

theorem nodup_crateSpots (named : e.Named) : ((crateSpots root crate e).map Spot.steps).Nodup := by
  rw [crateSpots]
  split
  · exact List.nodup_nil
  · have inside : ∀ c ∈ e.children, ∀ s ∈ topSpots root crate c,
        Path.components (Path.join root c.1) <+: s.steps :=
      fun c listed s => prefix_of_mem_topSpots (named.inner listed)
    refine nodup_flatMap_children named inside fun c listed => ?_
    rw [topSpots]
    split
    · exact nodup_programSpots (named.inner listed)
    · exact nodup_spots (named.inner listed)

theorem prefix_of_mem_crateSpots (named : e.Named) (here : s ∈ crateSpots root crate e) :
    Path.components root <+: s.steps := by
  rw [crateSpots] at here
  split at here
  · cases here
  · obtain ⟨c, listed, mem⟩ := List.mem_flatMap.1 here
    have inside := prefix_of_mem_topSpots (named.inner listed) mem
    rw [Path.components_join (named.isName listed)] at inside
    exact (List.prefix_append _ _).trans inside

theorem named_of_childFolder? (named : e.Named) (found : childFolder? e name = some folder) :
    IsName name ∧ folder.Named :=
  named.of_child? (Option.filter_eq_some_iff.1 found).1

/-- The tests of a folder are those right in its folder of tests. -/
theorem mem_testSpots_iff {includeTests : Bool} : s ∈ testSpots includeTests path folder ↔
    includeTests = true ∧ ∃ tests, childFolder? folder "tests" = some tests ∧
      s ∈ programSpots (Path.join path "tests") tests := by
  rw [testSpots]
  cases childFolder? folder "tests" with
  | none => simp
  | some tests => cases includeTests <;> simp

theorem nodup_testSpots (includeTests : Bool) (named : folder.Named) :
    ((testSpots includeTests path folder).map Spot.steps).Nodup := by
  rw [testSpots]
  cases hasTests : childFolder? folder "tests" with
  | none => exact List.nodup_nil
  | some tests =>
    dsimp only
    split
    · exact nodup_programSpots (named_of_childFolder? named hasTests).2
    · exact List.nodup_nil

theorem nodup_folderSpots (includeTests : Bool) (named : folder.Named) :
    ((folderSpots includeTests crate path folder).map Spot.steps).Nodup := by
  rw [folderSpots]
  cases hasSources : childFolder? folder "src" with
  | none => exact nodup_crateSpots named
  | some src =>
    obtain ⟨isName, inner⟩ := named_of_childFolder? named hasSources
    dsimp only
    rw [List.map_append, List.nodup_append]
    refine ⟨nodup_crateSpots inner, nodup_testSpots includeTests named, ?_⟩
    intro steps here steps' here' same
    obtain ⟨s, mem, rfl⟩ := List.mem_map.1 here
    obtain ⟨t, mem', rfl⟩ := List.mem_map.1 here'
    obtain ⟨_, tests, hasTests, mem'⟩ := mem_testSpots_iff.1 mem'
    obtain ⟨other, inner'⟩ := named_of_childFolder? named hasTests
    have first := prefix_of_mem_crateSpots inner mem
    have second := prefix_of_mem_programSpots inner' mem'
    exact absurd (Path.name_eq_of_prefix isName other first (same ▸ second)) (by decide)

variable {fs : Files} {r : BuildRequest} {argument : String} {found : List Spot} {top : Entry}

theorem nodup_of_inFolder {includeTests : Bool} (named : fs.top.Named)
    (inFolder : InFolder fs includeTests path found) : (found.map Spot.steps).Nodup := by
  obtain ⟨folder, crate, entry, _, rfl⟩ := inFolder
  exact nodup_folderSpots includeTests (Files.named_of_entry named entry)

/-- **An argument leads to no path twice.** -/
theorem nodup_argumentSpots (named : fs.top.Named) (given : argumentSpots fs r argument = .ok found) :
    (found.map Spot.steps).Nodup := by
  obtain ⟨e, _, given⟩ := argumentSpots_eq_ok_iff.1 given
  split at given
  · exact nodup_of_inFolder named given
  · rw [given]
    exact List.nodup_singleton _

/-! ### Folders that are listed in another order -/

theorem perm_spots (relisted : e.Relisted e') :
    (spots root crate path e).Perm (spots root crate path e') := by
  induction relisted generalizing path with
  | same _ => exact .refl _
  | order perm =>
    rw [spots, spots]
    split
    · exact .refl _
    · rw [spotsAmong_eq, spotsAmong_eq]
      exact perm.flatMap_right _
  | inside _ hyp =>
    rw [spots, spots]
    split
    · exact .refl _
    · simp only [spotsAmong_eq, List.flatMap_append, List.flatMap_cons]
      exact (hyp.append_right _).append_left _
  | trans _ _ first second => exact first.trans second

theorem perm_programSpots (relisted : e.Relisted e') :
    (programSpots path e).Perm (programSpots path e') :=
  relisted.perm_flatMap fun changed => by
    rw [programSpot, programSpot, changed.text_eq]

theorem perm_crateSpots (relisted : e.Relisted e') :
    (crateSpots root crate e).Perm (crateSpots root crate e') := by
  rw [crateSpots, crateSpots]
  split
  · exact .refl _
  · refine relisted.perm_flatMap fun {name f f'} changed => ?_
    rw [topSpots, topSpots, changed.isFolder_eq]
    split
    · exact perm_programSpots changed
    · exact perm_spots changed

/-- A folder of a name is there in both orders, or in none of them. -/
theorem childFolder?_relisted (relisted : e.Relisted e') (named : e.Named) (name : String) :
    Option.Rel Entry.Relisted (childFolder? e name) (childFolder? e' name) := by
  unfold childFolder?
  cases found : e.child? name with
  | none =>
    have absent := relisted.isSome_child? named name
    rw [found, Option.isSome_none, Option.isSome_eq_false_iff, Option.isNone_iff_eq_none] at absent
    rw [absent]
    exact .none
  | some f =>
    obtain ⟨f', there, changed⟩ := relisted.child? named found
    rw [there, Option.filter_some, Option.filter_some, changed.isFolder_eq]
    split
    · exact .some changed
    · exact .none

theorem perm_testSpots (includeTests : Bool) (relisted : e.Relisted e') (named : e.Named) :
    (testSpots includeTests path e).Perm (testSpots includeTests path e') := by
  have tests := childFolder?_relisted relisted named "tests"
  rw [testSpots, testSpots]
  generalize childFolder? e "tests" = f at tests ⊢
  generalize childFolder? e' "tests" = f' at tests ⊢
  cases tests with
  | none => exact .refl _
  | some changed =>
    dsimp only
    split
    · exact perm_programSpots changed
    · exact .refl _

theorem perm_folderSpots (includeTests : Bool) (relisted : e.Relisted e') (named : e.Named) :
    (folderSpots includeTests crate path e).Perm (folderSpots includeTests crate path e') := by
  have sources := childFolder?_relisted relisted named "src"
  rw [folderSpots, folderSpots]
  generalize childFolder? e "src" = f at sources ⊢
  generalize childFolder? e' "src" = f' at sources ⊢
  cases sources with
  | none => exact perm_crateSpots relisted
  | some changed => exact (perm_crateSpots changed).append (perm_testSpots _ relisted named)

theorem readPackage_relisted (relisted : e.Relisted e') (named : e.Named) (path : String) :
    readPackage path e' = readPackage path e := by
  unfold readPackage
  cases found : e.child? "Cargo.toml" with
  | none =>
    have absent := relisted.isSome_child? named "Cargo.toml"
    rw [found, Option.isSome_none, Option.isSome_eq_false_iff, Option.isNone_iff_eq_none] at absent
    rw [absent]
  | some f =>
    obtain ⟨f', there, changed⟩ := relisted.child? named found
    have folders := changed.isFolder_eq
    have texts := changed.text_eq
    rw [there]
    cases f with
    | file _ =>
      cases f' with
      | file _ =>
        dsimp only
        rw [texts]
      | folder _ => cases folders
    | folder _ =>
      cases f' with
      | file _ => cases folders
      | folder _ => rfl

/-- **A crate has the same name.** -/
theorem crateName_relisted (known : fs.top.Named) (relisted : fs.top.Relisted top)
    (inner : e.Relisted e') (named : e.Named) (path : String) :
    crateName (fs.relist top) path e' = crateName fs path e := by
  unfold crateName
  rw [readPackage_relisted inner named, Files.lastName?_relist relisted known]

theorem perm_of_inFolder {includeTests : Bool} (named : fs.top.Named)
    (relisted : fs.top.Relisted top) (inFolder : InFolder fs includeTests path found) :
    ∃ others, InFolder (fs.relist top) includeTests path others ∧ found.Perm others := by
  obtain ⟨folder, crate, entry, isName, rfl⟩ := inFolder
  obtain ⟨folder', entry', inner⟩ := Files.entry_relist relisted named entry
  have known := Files.named_of_entry named entry
  exact ⟨_, ⟨folder', crate, entry', (crateName_relisted named relisted inner known path).trans isName,
    rfl⟩, perm_folderSpots includeTests inner known⟩

/-- **An argument leads to the same in another order.** -/
theorem perm_argumentSpots (named : fs.top.Named) (relisted : fs.top.Relisted top)
    (given : argumentSpots fs r argument = .ok found) :
    ∃ others, argumentSpots (fs.relist top) r argument = .ok others ∧ found.Perm others := by
  obtain ⟨e, entry, given⟩ := argumentSpots_eq_ok_iff.1 given
  obtain ⟨e', entry', inner⟩ := Files.entry_relist relisted named entry
  simp only [argumentSpots_eq_ok_iff, entry', Except.ok.injEq, exists_eq_left',
    ← inner.isFolder_eq, ← inner.text_eq]
  by_cases isFolder : e.isFolder = true
  · simp only [if_pos isFolder] at given ⊢
    exact perm_of_inFolder named relisted given
  · simp only [if_neg isFolder] at given ⊢
    exact ⟨_, rfl, .of_eq given⟩

end

end CallGraph.Program
