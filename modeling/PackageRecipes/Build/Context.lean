import PackageRecipes.Build.Command

/-! What the steps of one build know: the package, its configuration and its directories. -/
namespace PackageRecipes

open Text

structure BuildContext where
  spec : PackageSpec
  configuration : Configuration
  installDir : Path
  sourceDir : Path
  dependencyDirs : NameMap Path
  environment : Environment
  jobs : Nat
  runner : Runner
  inherited : ProcessEnv

/-- A dependency as it is installed. -/
structure InstalledDependency where
  configuration : Configuration
  installDir : Path

namespace BuildContext

def buildDirName : String := "hpcpkg-build"

def package (ctx : BuildContext) : String := ctx.spec.name

def buildDir (ctx : BuildContext) : Path := ctx.sourceDir / buildDirName

def makeJobs (ctx : BuildContext) : Nat := if ctx.spec.parallel then ctx.jobs else 1

def dependencyDir (ctx : BuildContext) (name : String) : Except Error Path :=
  match ctx.dependencyDirs.get? name with
  | some dir => .ok dir
  | none => .error (.notFound (.dependencyPrefix name ctx.package))

/-- The value of a placeholder. -/
def lookup (ctx : BuildContext) (key : String) : Option String :=
  match after? "dep:" key with
  | some dep => (ctx.dependencyDirs.get? dep).map Path.text
  | none =>
    match after? "variant:" key with
    | some name => (ctx.configuration.variant? name).map VariantValue.render
    | none =>
      match key with
      | "name" => some ctx.package
      | "version" => some ctx.configuration.version.label
      | "prefix" => some ctx.installDir.text
      | "source" => some ctx.sourceDir.text
      | "build" => some ctx.buildDir.text
      | "jobs" => some ctx.makeJobs.repr
      | "compiler" => ctx.configuration.compiler.map Compiler.name
      | _ => none

def substitute (ctx : BuildContext) (template : String) : String :=
  Template.substitute template ctx.lookup

/-- A path of the recipe, within the source directory unless it is absolute. -/
def sourcePath (ctx : BuildContext) (relative : String) : Path :=
  ctx.sourceDir / ctx.substitute relative

/-- Runs a command in the build's environment. -/
def run (ctx : BuildContext) (program : String) (args : List String) (cwd : Path) : Action Unit :=
  .issue ctx.runner ⟨program, args, cwd, ctx.environment.vars⟩

/-- A step on the files, which a dry run leaves out. -/
def unlessDry (ctx : BuildContext) (step : Action Unit) : Action Unit :=
  if ctx.runner.isDry then pure () else step

end BuildContext

end PackageRecipes
