import PackageRecipes.CommandLine.Run
import PackageRecipes.Proofs.Repository.Validity

/-!
# Checking and loading

Loading ends at the first recipe file that is refused. Checking counts it and goes on, with the repository as
it was. So both end with the same repository as long as no file is refused, and the count is the number of files
that are faulty in view of those in front of them.
-/

namespace PackageRecipes

variable {files : FileTree} {earlier done : List Path} {path : Path} {n : String}

namespace Repository

/-! ## Faulty files -/

/-- The package that a file has a valid recipe of. -/
def packageOf? (files : FileTree) (path : Path) : Option String :=
  match Recipe.parseFile files path with
  | .error _ => none
  | .ok recipe =>
    match recipe.validate with
    | .error _ => none
    | .ok _ => some recipe.package.name

/-- The file cannot be read as a recipe, or the recipe is refused, or a valid file in front of it is for the
same package. -/
inductive Faulty (files : FileTree) (earlier : List Path) (path : Path) : Prop where
  | unreadable {fault : Error} (h : Recipe.parseFile files path = .error fault)
  | invalid {recipe : Recipe} {fault : Error} (h : Recipe.parseFile files path = .ok recipe)
      (hrefused : recipe.validate = .error fault)
  | repeated {recipe : Recipe} {p : Path} (h : Recipe.parseFile files path = .ok recipe) (hp : p ∈ earlier)
      (hvalid : packageOf? files p = some recipe.package.name)

theorem packageOf?_eq_some : packageOf? files path = some n ↔ ∃ recipe,
    Recipe.parseFile files path = .ok recipe ∧ (∃ ws, recipe.validate = .ok ws) ∧ recipe.package.name = n := by
  unfold packageOf?
  cases Recipe.parseFile files path with
  | error fault => simp
  | ok recipe => cases hvalidate : recipe.validate <;> simp [hvalidate]

theorem faulty_iff : Faulty files earlier path ↔
    ∀ n, packageOf? files path = some n → n ∈ earlier.filterMap (packageOf? files) := by
  simp only [List.mem_filterMap]
  constructor
  · intro h n hn
    obtain ⟨recipe, hread, ⟨ws, hvalid⟩, rfl⟩ := packageOf?_eq_some.1 hn
    cases h with
    | unreadable h => rw [hread] at h; cases h
    | invalid h hrefused =>
        rw [hread] at h
        cases h
        rw [hvalid] at hrefused
        cases hrefused
    | repeated h hp hsame =>
        rw [hread] at h
        cases h
        exact ⟨_, hp, hsame⟩
  · intro h
    cases hread : Recipe.parseFile files path with
    | error fault => exact .unreadable hread
    | ok recipe =>
        cases hvalid : recipe.validate with
        | error fault => exact .invalid hread hvalid
        | ok ws =>
            obtain ⟨p, hp, hsame⟩ := h _ (packageOf?_eq_some.2 ⟨recipe, hread, ⟨ws, hvalid⟩, rfl⟩)
            exact .repeated hread hp hsame

instance : Decidable (Faulty files earlier path) :=
  decidable_of_iff ((packageOf? files path).all (· ∈ earlier.filterMap (packageOf? files)) = true) <| by
    rw [faulty_iff]
    cases packageOf? files path <;> simp

/-- The file at a place of the list is faulty. -/
def FaultyAt (files : FileTree) (paths : List Path) (i : Nat) : Prop :=
  ∃ path ∈ paths[i]?, Faulty files (paths.take i) path

instance (paths : List Path) : DecidablePred (FaultyAt files paths) :=
  fun i => inferInstanceAs (Decidable (∃ path ∈ paths[i]?, Faulty files (paths.take i) path))

def faultCount (files : FileTree) (paths : List Path) : Nat :=
  (List.range paths.length).countP (FaultyAt files paths)

theorem faultyAt_append {i : Nat} (h : i < done.length) :
    FaultyAt files (done ++ [path]) i ↔ FaultyAt files done i := by
  rw [FaultyAt, FaultyAt, List.getElem?_append_left h, List.take_append_of_le_length (by omega)]

theorem faultyAt_length : FaultyAt files (done ++ [path]) done.length ↔ Faulty files done path := by
  simp [FaultyAt]

theorem faultCount_append : faultCount files (done ++ [path]) =
    faultCount files done + if Faulty files done path then 1 else 0 := by
  have hbefore : (List.range done.length).countP (FaultyAt files (done ++ [path])) = faultCount files done :=
    List.countP_congr fun i hi => by simp [faultyAt_append (List.mem_range.1 hi)]
  rw [faultCount, List.length_append, List.length_singleton, List.range_succ, List.countP_append, hbefore,
    List.countP_singleton]
  simp [faultyAt_length]

/-! ## One more file -/

variable {r r' : Repository}

theorem addFile_ok (h : addFile files r path = .ok r') : ∃ n, packageOf? files path = some n ∧ n ∉ r.names ∧
    (∀ m, m ∈ r'.names ↔ m = n ∨ m ∈ r.names) ∧ r'.size = r.size + 1 := by
  unfold addFile at h
  split at h
  · cases h
  · rename_i recipe hread
    obtain ⟨hnew, spec, hspec, hbuild, rfl⟩ := add_ok_iff.1 h
    have hvalid := Recipe.exists_validate_ok.2 ⟨spec, hspec, hbuild⟩
    exact ⟨_, packageOf?_eq_some.2 ⟨recipe, hread, hvalid, rfl⟩, hnew, fun m => NameMap.mem_keys_insert,
      NameMap.size_insert hnew⟩

theorem exists_addFile_ok (hvalid : packageOf? files path = some n) (hnew : n ∉ r.names) :
    ∃ r', addFile files r path = .ok r' := by
  obtain ⟨recipe, hread, hvalidate, rfl⟩ := packageOf?_eq_some.1 hvalid
  obtain ⟨spec, hspec, hbuild⟩ := Recipe.exists_validate_ok.1 hvalidate
  rw [addFile, hread]
  exact ⟨_, add_ok_iff.2 ⟨hnew, spec, hspec, hbuild, rfl⟩⟩

end Repository

namespace CommandLine

open Repository

variable {f : Findings} {r : Repository}

/-- The line that tells how many recipes and problems there are. -/
def summary (recipes errors warnings : Nat) : String :=
  s!"\n{recipes} recipe(s), {errors} error(s), {warnings} warning(s)"

theorem Findings.addFile_ok (h : Repository.addFile files f.repository path = .ok r) :
    (f.addFile files path).repository = r ∧ (f.addFile files path).errors = f.errors := by
  cases hread : Recipe.parseFile files path with
  | error fault =>
      rw [Repository.addFile, hread] at h
      cases h
  | ok recipe =>
      have hadd : f.repository.add recipe (some path) = .ok r := by rwa [Repository.addFile, hread] at h
      obtain ⟨-, spec, hspec, hbuild, -⟩ := add_ok_iff.1 hadd
      obtain ⟨ws, hvalid⟩ := Recipe.exists_validate_ok.2 ⟨spec, hspec, hbuild⟩
      have hrun := Update.result_eq_ok.1 hadd
      simp only [addFile, hread, hvalid, addWarnings, hrun, and_self]

theorem Findings.addFile_error {fault : Error}
    (h : Repository.addFile files f.repository path = .error fault) :
    (f.addFile files path).repository = f.repository ∧ (f.addFile files path).errors = f.errors + 1 := by
  cases hread : Recipe.parseFile files path with
  | error cause => simp only [addFile, hread, addError, and_self]
  | ok recipe =>
      have hadd : f.repository.add recipe (some path) = .error fault := by
        rwa [Repository.addFile, hread] at h
      cases hvalid : recipe.validate with
      | error cause => simp only [addFile, hread, hvalid, addError, and_self]
      | ok ws =>
          obtain ⟨r', hrun⟩ := Update.result_eq_error.1 hadd
          obtain rfl := add_refused hrun
          simp only [addFile, hread, hvalid, addWarnings, hrun, addError, and_self]

/-- What has been found in some files: their faults, and the repository of the others. Loading leads to it
while there is no fault, and is at an end otherwise. -/
structure Tally (files : FileTree) (done : List Path) (f : Findings) : Prop where
  errors : f.errors = faultCount files done
  names : ∀ n, n ∈ f.repository.names ↔ n ∈ done.filterMap (packageOf? files)
  size : f.repository.size + f.errors = done.length
  loads : f.errors = 0 → done.foldlM (Repository.addFile files) .empty = .ok f.repository
  ends : f.errors ≠ 0 → ∃ fault, done.foldlM (Repository.addFile files) .empty = .error fault

theorem tally_none (files : FileTree) : Tally files [] .none where
  errors := rfl
  names := fun _ => Iff.rfl
  size := rfl
  loads := fun _ => rfl
  ends := fun h => absurd rfl h

theorem Tally.addFile (h : Tally files done f) (path : Path) :
    Tally files (done ++ [path]) (f.addFile files path) := by
  have hfold : (done ++ [path]).foldlM (Repository.addFile files) .empty =
      done.foldlM (Repository.addFile files) .empty >>= (Repository.addFile files · path) := by
    rw [List.foldlM_append]
    simp
  cases hadd : Repository.addFile files f.repository path with
  | ok r =>
      obtain ⟨n, hvalid, hnew, hnames, hsize⟩ := Repository.addFile_ok hadd
      obtain ⟨hrepository, herrors⟩ := Findings.addFile_ok hadd
      -- The package is new, so no valid file in front of this one has it.
      have hsound : ¬ Faulty files done path := by
        rw [faulty_iff]
        intro hall
        exact hnew ((h.names n).2 (hall n hvalid))
      constructor
      · rw [herrors, faultCount_append, if_neg hsound, Nat.add_zero, h.errors]
      · intro m
        rw [hrepository, hnames, List.filterMap_append, List.mem_append, h.names, or_comm]
        simp [hvalid, eq_comm]
      · rw [hrepository, herrors, hsize, List.length_append, List.length_singleton, ← h.size]
        omega
      · rw [herrors, hfold]
        intro hzero
        rw [h.loads hzero, hrepository]
        exact hadd
      · rw [herrors, hfold]
        intro hsome
        obtain ⟨fault, hends⟩ := h.ends hsome
        exact ⟨fault, by rw [hends]; rfl⟩
  | error fault =>
      obtain ⟨hrepository, herrors⟩ := Findings.addFile_error hadd
      have hfaulty : Faulty files done path := by
        rw [faulty_iff]
        intro n hvalid
        -- A valid file of a new package would have been taken in.
        by_contra hnot
        obtain ⟨r, hr⟩ := exists_addFile_ok hvalid (mt (h.names n).1 hnot)
        rw [hadd] at hr
        cases hr
      constructor
      · rw [herrors, faultCount_append, if_pos hfaulty, h.errors]
      · intro m
        rw [hrepository, h.names, List.filterMap_append, List.mem_append]
        refine ⟨.inl, fun hm => hm.elim id fun hlast => ?_⟩
        rw [List.mem_filterMap] at hlast
        obtain ⟨p, hp, hvalid⟩ := hlast
        rw [List.mem_singleton.1 hp] at hvalid
        exact faulty_iff.1 hfaulty m hvalid
      · rw [hrepository, herrors, List.length_append, List.length_singleton, ← h.size]
        omega
      · rw [herrors]
        intro hzero
        omega
      · intro _
        rw [hfold]
        by_cases hzero : f.errors = 0
        · exact ⟨fault, by rw [h.loads hzero]; exact hadd⟩
        · obtain ⟨first, hends⟩ := h.ends hzero
          exact ⟨first, by rw [hends]; rfl⟩

theorem Tally.addFiles (h : Tally files done f) (paths : List Path) :
    Tally files (done ++ paths) (paths.foldl (Findings.addFile files) f) := by
  induction paths generalizing done f with
  | nil => rwa [List.append_nil]
  | cons path rest ih =>
      rw [List.append_cons]
      exact ih (h.addFile path)

/-! ## The whole check -/

theorem Findings.report_ok (h : f.errors = 0) : f.report false =
    .ok (f.lines ++ f.externalLines ++
      [summary f.repository.size 0 f.warnings, "[OK] All recipes are valid"]) := by
  have hverdict : f.verdict false = .ok () := by simp [verdict, h]
  rw [report, hverdict, h]
  simp [summary]

theorem Findings.report_error (h : f.errors ≠ 0) : f.report false =
    .failed (f.lines ++ f.externalLines ++ [summary f.repository.size f.errors f.warnings])
      (.invalidRecipes f.errors) := by
  have hverdict : f.verdict false = .error (.invalidRecipes f.errors) := by
    simp [verdict, Nat.pos_of_ne_zero h]
  rw [report, hverdict]
  rfl

/-- Checking succeeds, unless it is strict, where loading does, and then it tells the number of the recipes
that are loaded. Otherwise, in a directory, it tells the number of the faulty files, and that of the others. -/
theorem check_iff_loadDir (files : FileTree) (settings : Settings) :
    ((check files settings false).result = .ok () ↔ ∃ r, loadDir files settings.repoDir = .ok r) ∧
    (∀ r, loadDir files settings.repoDir = .ok r → ∃ lines warnings,
      (check files settings false).lines =
        lines ++ [summary r.size 0 warnings, "[OK] All recipes are valid"]) ∧
    (files.isDirectory settings.repoDir → ∀ fault, loadDir files settings.repoDir = .error fault →
      ∃ paths, recipeFiles files settings.repoDir = .ok paths ∧
        (check files settings false).result = .error (.invalidRecipes (faultCount files paths)) ∧
        ∃ lines recipes warnings, recipes + faultCount files paths = paths.length ∧
          (check files settings false).lines =
            lines ++ [summary recipes (faultCount files paths) warnings]) := by
  rw [check, loadDir]
  cases hfiles : recipeFiles files settings.repoDir with
  | error fault =>
      have hmissing : ¬ files.isDirectory settings.repoDir := by
        intro hdirectory
        rw [recipeFiles, if_pos hdirectory] at hfiles
        cases hfiles
      simp [Report.failed, hmissing]
  | ok paths =>
      dsimp only
      have h : Tally files paths (paths.foldl (Findings.addFile files) .none) :=
        (tally_none files).addFiles paths
      generalize paths.foldl (Findings.addFile files) .none = f at h ⊢
      by_cases hzero : f.errors = 0
      · have hload := h.loads hzero
        simp only [hload, Findings.report_ok hzero, Report.ok]
        refine ⟨⟨fun _ => ⟨_, rfl⟩, fun _ => trivial⟩, ?_, nofun⟩
        rintro r hr
        cases hr
        exact ⟨_ :: (f.lines ++ f.externalLines), f.warnings, rfl⟩
      · obtain ⟨fault, hload⟩ := h.ends hzero
        simp only [hload, Findings.report_error hzero, Report.failed]
        refine ⟨⟨nofun, nofun⟩, nofun, fun _ _ _ => ⟨paths, rfl, ?_, ?_⟩⟩
        · rw [h.errors]
        · rw [← h.errors]
          exact ⟨_ :: (f.lines ++ f.externalLines), f.repository.size, f.warnings, h.size, rfl⟩

/-- A directory with two recipe files for one package. -/
def twice : FileTree where
  entries := [(["recipes"], .directory),
    (["recipes", "first.toml"], .file "[package]\nname = \"zlib\"\n".toUTF8),
    (["recipes", "second.toml"], .file "[package]\nname = \"zlib\"\n".toUTF8)]

theorem recipeFiles_twice :
    recipeFiles twice ⟨"recipes"⟩ = .ok [⟨"recipes/first.toml"⟩, ⟨"recipes/second.toml"⟩] := by
  have hsorted : ["first.toml", "second.toml"].mergeSort (· ≤ ·) = ["first.toml", "second.toml"] :=
    List.mergeSort_of_pairwise (by decide)
  have hlist : twice.list ⟨"recipes"⟩ = .ok ["first.toml", "second.toml"] := by
    rw [← hsorted]
    rfl
  have hsteps : ["first.toml", "second.toml"].flatMap (fun name =>
      let p := (⟨"recipes"⟩ : Path) / name
      if twice.isDirectory p then recipesIn twice twice.entries.length p
      else if twice.isFile p && p.extension? == some "toml" then [p] else []) =
        [⟨"recipes/first.toml"⟩, ⟨"recipes/second.toml"⟩] := by decide +kernel
  rw [recipeFiles, if_pos (by decide +kernel), recipesIn, hlist]
  exact congrArg Except.ok hsteps

theorem check_twice :
    (∃ fault, loadDir twice ⟨"recipes"⟩ = .error fault) ∧
      (check twice .default false).result = .error (.invalidRecipes 1) := by
  have hdirectory : twice.isDirectory ⟨"recipes"⟩ := by decide +kernel
  have hcount : faultCount twice [⟨"recipes/first.toml"⟩, ⟨"recipes/second.toml"⟩] = 1 := by decide +kernel
  have htally := (tally_none twice).addFiles [⟨"recipes/first.toml"⟩, ⟨"recipes/second.toml"⟩]
  have hload : ∃ fault, loadDir twice ⟨"recipes"⟩ = .error fault := by
    rw [loadDir, recipeFiles_twice]
    exact htally.ends (by rw [htally.errors, List.nil_append, hcount]; exact Nat.one_ne_zero)
  obtain ⟨fault, hfault⟩ := hload
  obtain ⟨-, -, hfailed⟩ := check_iff_loadDir twice .default
  obtain ⟨paths, hpaths, hresult, -⟩ := hfailed hdirectory fault hfault
  cases recipeFiles_twice.symm.trans hpaths
  exact ⟨⟨fault, hfault⟩, by rw [hresult, hcount]⟩

end CommandLine

end PackageRecipes
