import PackageRecipes.Build.RecipeHooks
import PackageRecipes.Build.Context
import PackageRecipes.Build.FileSteps

/-! What a package does in each phase of a build. -/
namespace PackageRecipes

/-- What a package does in each phase, and what it sets for packages that depend on it. -/
structure Hooks where
  setupEnvironment : BuildContext → Environment → Action Environment
  setupDependentEnvironment :
    BuildContext → InstalledDependency → Environment → Action Environment
  edit : BuildContext → Action Unit
  configure : BuildContext → Action Unit
  build : BuildContext → Action Unit
  install : BuildContext → Action Unit

/-- Hooks that do nothing. -/
def Hooks.none : Hooks where
  setupEnvironment _ env := pure env
  setupDependentEnvironment _ _ env := pure env
  edit _ := pure ()
  configure _ := pure ()
  build _ := pure ()
  install _ := pure ()

namespace RecipeHooks

open Text

variable (h : RecipeHooks) (ctx : BuildContext)

/-- The directory that commands run in and that installed files are taken from. -/
def workDir : Path :=
  match h.workdir with
  | some dir => ctx.sourcePath dir
  | none => ctx.sourceDir

/-- The directory that `make` runs in. -/
def makeDir : Path :=
  match h.buildSystem with
  | .cmake => ctx.buildDir
  | .makefile | .generic => h.workDir ctx

/-- The arguments of `make` in front of its targets. -/
def makeArguments : List String :=
  s!"-j{ctx.makeJobs}"
    :: ((h.makefile.map fun f => "--makefile=" ++ ctx.substitute f).toList
      ++ h.makeArgs.map ctx.substitute)

def make (targets : List String) : Action Unit :=
  ctx.run "make" (h.makeArguments ctx ++ targets) (h.makeDir ctx)

/-- Runs the active commands of a phase in order. -/
def runCommands (phase : CommandPhase) : Action Unit :=
  ((activeEntries h.commands ctx.configuration).filter (·.phase = phase)).forM fun c =>
    let cwd := match c.workdir with
      | some dir => ctx.sourcePath dir
      | none => h.workDir ctx
    match c.args.map ctx.substitute with
    | [] => pure ()
    | program :: args => ctx.run program args cwd

/-- Applies active entries to an environment in order. -/
def applyEntries (steps : List (Step EnvEntry)) (config : Configuration)
    (lookup : String → Option String) (inherited : ProcessEnv) (env : Environment) : Environment :=
  (activeEntries steps config).foldl
    (fun env e => env.apply inherited e.action e.name (Template.substitute e.value lookup)) env

/-- The value of a placeholder in what a package sets for its dependents: the package is described
as it is installed, and all else comes from the dependent's build. -/
def dependentLookup (d : InstalledDependency) (key : String) : Option String :=
  match key with
  | "name" => some d.configuration.name
  | "version" => some d.configuration.version.label
  | "prefix" => some d.installDir.text
  | _ =>
    match after? "variant:" key with
    | some name => (d.configuration.variant? name).map VariantValue.render
    | none => ctx.lookup key

/-! ## Phases -/

def copyFiles : Action Unit :=
  (activeEntries h.copies ctx.configuration).forM fun c =>
    ctx.unlessDry (.onFiles (.copyFile (ctx.sourcePath c.source) (ctx.sourcePath c.target)))

def editFiles : Action Unit :=
  (activeEntries h.edits ctx.configuration).forM fun e =>
    ctx.unlessDry do
      let _ ← Action.onFiles
        (.editFile (ctx.sourcePath e.file) e.pattern (ctx.substitute e.replacement))

def appendFiles : Action Unit :=
  (activeEntries h.appends ctx.configuration).forM fun a =>
    ctx.unlessDry
      (.onFiles (.appendLines (ctx.sourcePath a.file) (a.lines.map ctx.substitute) a.create))

def editPhase : Action Unit := do
  h.copyFiles ctx
  h.editFiles ctx
  h.appendFiles ctx
  h.runCommands ctx .edit

def cmakeArguments : List String :=
  ctx.sourceDir.text :: s!"-DCMAKE_INSTALL_PREFIX={ctx.installDir}"
    :: (activeEntries h.cmakeArgs ctx.configuration).flatten.map ctx.substitute

def configurePhase : Action Unit := do
  if h.buildSystem = .cmake then
    ctx.run "cmake" (h.cmakeArguments ctx) ctx.buildDir
  h.runCommands ctx .configure

/-- A generic package runs `make` only when it names a target. -/
def buildPhase : Action Unit := do
  let targets := (activeEntries h.targets ctx.configuration).map ctx.substitute
  if h.buildSystem ≠ .generic || !targets.isEmpty then
    h.make ctx targets
  h.runCommands ctx .build

/-- Copies every file that an entry stands for into a directory. -/
def installFiles (source target : Path) : Action Unit := do
  let files ← Action.onFiles (.inspect (FileStep.filesLike source))
  files.forM fun file =>
    match file.fileName? with
    | none => pure ()
    | some name => .onFiles (.copyFile file (target / name))

def installPhase : Action Unit := do
  if h.makeInstall && h.buildSystem ≠ .generic then
    h.make ctx [h.installTarget]
  (activeEntries h.install ctx.configuration).forM fun a =>
    ctx.unlessDry (installFiles (h.workDir ctx / ctx.substitute a.source)
      (ctx.installDir / ctx.substitute a.target))
  h.runCommands ctx .install

/-- The hooks that a recipe describes. -/
def toHooks (h : RecipeHooks) : Hooks where
  setupEnvironment ctx env :=
    pure (applyEntries h.environment ctx.configuration ctx.lookup ctx.inherited env)
  setupDependentEnvironment ctx d env :=
    pure (applyEntries h.dependentEnvironment d.configuration (dependentLookup ctx d) ctx.inherited
      env)
  edit := h.editPhase
  configure := h.configurePhase
  build := h.buildPhase
  install := h.installPhase

end RecipeHooks

end PackageRecipes
