import PackageRecipes.Build.Builder
import PackageRecipes.Data.Printer
import PackageRecipes.Files.Verification
import PackageRecipes.CommandLine.Basic
import PackageRecipes.CommandLine.Failure
import PackageRecipes.CommandLine.Overview

/-! What each command prints, how it ends and which files it leaves. -/
namespace PackageRecipes.CommandLine

/-- What a command can know of the machine that it runs on. -/
structure Machine where
  files : FileTree
  env : ProcessEnv
  /-- The directory of the user's configuration files. -/
  configDir : Option Path
  processors : Nat
  /-- Runs the commands of builds. -/
  runner : Runner

/-- The lines that a command prints before it ends well or fails. -/
structure Report where
  lines : List String
  result : Except Failure Unit

namespace Report

def ok (lines : List String) : Report := ⟨lines, .ok ()⟩

def failed (lines : List String) (f : Failure) : Report := ⟨lines, .error f⟩

/-- Nothing is printed when the lines cannot be had. -/
def ofLines : Except Failure (List String) → Report
  | .ok lines => ok lines
  | .error f => failed [] f

/-- Each line with its end. -/
def output (r : Report) : String := String.join (r.lines.map (· ++ "\n"))

end Report

def loadRecipes (files : FileTree) (settings : Settings) : Except Failure Repository :=
  (Repository.loadDir files settings.repoDir).mapError (.during (.loadRecipes settings.repoDir))

/-- A package of the repository in the configuration that is asked for. -/
structure Chosen where
  repository : Repository
  spec : PackageSpec
  configuration : Configuration

def choose (files : FileTree) (settings : Settings) (package : String) (selection : Selection) :
    Except Failure Chosen := do
  let repository ← loadRecipes files settings
  let spec ← (repository.require package).mapError .refused
  let configuration ← (selection.apply spec settings).mapError .selection
  return ⟨repository, spec, configuration⟩

/-- Marks a package that no recipe is there for. -/
def originOf (r : Repository) (name : String) : String :=
  if (r.find? name).isSome then "" else " (external)"

/-! ## Questions -/

def info (files : FileTree) (settings : Settings) (package : String) (json : Bool) :
    Except Failure (List String) := do
  let repository ← loadRecipes files settings
  let spec ← (repository.require package).mapError .refused
  return if json then [spec.toData.toJson] else overview spec

def activeLines (c : Chosen) : List String :=
  match c.spec.activeDependencies c.configuration with
  | [] => ["No active dependencies"]
  | deps =>
    "\nActive dependencies:" :: deps.map fun d =>
      s!"  {d.render} [{typeList d}]{originOf c.repository d.target}"

def deps (files : FileTree) (settings : Settings) (package : String) (selection : Selection)
    (json : Bool) : Except Failure (List String) := do
  let c ← choose files settings package selection
  if json then return [(c.repository.defaultTree c.configuration).toData.toJson]
  else
    return c.configuration.render
      :: (c.spec.activeConflicts c.configuration).map (fun x => s!"[CONFLICT] {x.render}")
      ++ activeLines c

def order (files : FileTree) (settings : Settings) (package : String) (selection : Selection) :
    Except Failure (List String) := do
  let c ← choose files settings package selection
  let names ← ((c.repository.dependencyGraph c.configuration).topologicalSort).mapError .refused
  return s!"Install order for {c.configuration}:"
    :: names.mapIdx fun i name =>
      s!"  {padStart 3 (i + 1).repr}. {name}{originOf c.repository name}"

def verify (files : FileTree) (file : Path) (text : String) : Except Failure (List String) :=
  match Checksum.parse text with
  | .error e => .error (.badChecksum text e)
  | .ok c =>
    match c.verify files file with
    | .error e => .error (.refused e)
    | .ok () => .ok [s!"[OK] {file} matches {c.render}"]

/-! ## Checking all recipes -/

/-- What has been found in the recipes so far. -/
structure Findings where
  repository : Repository
  lines : List String
  errors : Nat
  warnings : Nat

namespace Findings

def none : Findings := ⟨.empty, [], 0, 0⟩

def addError (f : Findings) (line : String) : Findings :=
  { f with lines := f.lines ++ [s!"[ERROR] {line}"], errors := f.errors + 1 }

def addWarnings (f : Findings) (package : String) (ws : List Recipe.Warning) : Findings :=
  { f with
    lines := f.lines ++ ws.map fun w => s!"[WARN] {package}: {w.message}"
    warnings := f.warnings + ws.length }

/-- Checks one more recipe file. -/
def addFile (files : FileTree) (f : Findings) (path : Path) : Findings :=
  match Recipe.parseFile files path with
  | .error e => f.addError e.message
  | .ok recipe =>
    match recipe.validate with
    | .error e => f.addError s!"{path}: {e.message}"
    | .ok ws =>
      let f := f.addWarnings recipe.package.name ws
      match (RepositoryStep.add recipe (some path)).runOn f.repository with
      | (.error e, repository) => { f with repository }.addError e.message
      | (.ok (), repository) => { f with repository }

def externalLines (f : Findings) : List String :=
  f.repository.unknownTargets.map fun (package, target) =>
    s!"[INFO] {package} depends on external package '{target}'"

def verdict (f : Findings) (strict : Bool) : Except Failure Unit :=
  if f.errors > 0 then .error (.invalidRecipes f.errors)
  else if strict && f.warnings > 0 then .error (.warnings f.warnings)
  else .ok ()

def report (f : Findings) (strict : Bool) : Report :=
  let lines := f.lines ++ f.externalLines
    ++ [s!"\n{f.repository.size} recipe(s), {f.errors} error(s), {f.warnings} warning(s)"]
  match f.verdict strict with
  | .error e => .failed lines e
  | .ok () => .ok (lines ++ ["[OK] All recipes are valid"])

end Findings

def check (files : FileTree) (settings : Settings) (strict : Bool) : Report :=
  let title := s!"Checking recipes in {settings.repoDir}"
  match Repository.recipeFiles files settings.repoDir with
  | .error e => .failed [title] (.refused e)
  | .ok paths =>
    let r := (paths.foldl (Findings.addFile files) .none).report strict
    { r with lines := title :: r.lines }

/-! ## Building -/

/-- Reads `name=path`, each name once. -/
def readDependencyDirs (texts : List String) : Except Failure (NameMap Path) :=
  texts.foldlM
    (fun dirs text =>
      match Text.cut? '=' text with
      | none => .error (.badDependencyDir text)
      | some (name, path) =>
        if dirs.contains name then .error (.repeatedDependencyDir name)
        else .ok (dirs.insert name ⟨path⟩))
    .empty

/-- A build with everything ready for it. -/
structure Plan where
  repository : Repository
  request : BuildRequest
  registry : HookRegistry
  jobs : Nat

def plan (m : Machine) (settings : Settings) (o : BuildOptions) : Except Failure Plan := do
  let c ← choose m.files settings o.package o.selection
  let dependencyDirs ← readDependencyDirs o.dependencyDirs
  if !o.isDry && !m.files.isDirectory o.sourceDir then throw (.noSource o.sourceDir)
  let registry ← (HookRegistry.ofRepository c.repository).mapError (.during .readHooks)
  return {
    repository := c.repository
    request := ⟨c.spec, c.repository.defaultTree c.configuration, o.installDir, o.sourceDir,
      dependencyDirs⟩
    registry
    jobs := o.jobs.getD (settings.jobCount m.processors) }

def Plan.run (p : Plan) (m : Machine) (runner : Runner) : Except Failure BuildReport × World :=
  let (result, world) :=
    ((Builder.mk p.registry runner p.jobs m.env).build p.request).runOn ⟨m.files, []⟩
  (result.mapError (.during (.build p.request.spec.name)), world)

/-- What a dry run would have done. -/
def outcomeLines (b : BuildReport) (issued : List Invocation) : List String :=
  s!"\nWould run {issued.length} command(s):"
    :: issued.map (fun i => s!"  {i.render}")
    ++ block "With environment:" (b.environment.vars.entries.map fun (k, v) => s!"  {k}={v}")

def Plan.dryRun (p : Plan) (m : Machine) : Report :=
  let config := p.request.configuration
  let title := s!"Dry run: building {config} with {p.jobs} jobs"
  match p.repository.installOrder config with
  | .error e => .failed [title] (.refused e)
  | .ok names =>
    let arrows := " -> ".intercalate names
    let head := [title, s!"Install order: {arrows}"]
    match p.run m .dry with
    | (.error f, _) => .failed head f
    | (.ok b, world) => .ok (head ++ outcomeLines b world.issued)

/-- Builds and gives back the files that the build leaves. -/
def Plan.realRun (p : Plan) (m : Machine) : Report × FileTree :=
  let head := [s!"Building {p.request.configuration} with {p.jobs} jobs"]
  match p.run m m.runner with
  | (.error f, world) => (.failed head f, world.files)
  | (.ok b, world) =>
    (.ok (head ++ [s!"\n[COMPLETE] Installed {b.package} into {b.installDir}"]), world.files)

def build (m : Machine) (settings : Settings) (o : BuildOptions) : Report × FileTree :=
  match plan m settings o with
  | .error f => (.failed [] f, m.files)
  | .ok p => if o.isDry then (p.dryRun m, m.files) else p.realRun m

/-! ## Any command -/

/-- Runs a command; only a build changes files. -/
def Command.run (m : Machine) (settings : Settings) : Command → Report × FileTree
  | .info package json => (.ofLines (CommandLine.info m.files settings package json), m.files)
  | .check strict => (CommandLine.check m.files settings strict, m.files)
  | .deps package selection json =>
    (.ofLines (CommandLine.deps m.files settings package selection json), m.files)
  | .order package selection =>
    (.ofLines (CommandLine.order m.files settings package selection), m.files)
  | .build options => CommandLine.build m settings options
  | .verify file checksum => (.ofLines (CommandLine.verify m.files file checksum), m.files)

/-- Runs a request under the settings of the machine's user. -/
def Request.run (r : Request) (m : Machine) : Report × FileTree :=
  match Settings.load m.files m.env m.configDir with
  | .error e => (.failed [] (.refused e), m.files)
  | .ok settings =>
    r.command.run m { settings with repo := r.repo <|> settings.repo }

end PackageRecipes.CommandLine
