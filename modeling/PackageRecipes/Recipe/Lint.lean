import PackageRecipes.Build.RecipeHooks

/-! Checks of whole recipes, and warnings about what is probably meant otherwise. -/
namespace PackageRecipes.Recipe

inductive Warning where
  | noSummary
  | noHomepage
  | noVersions
  | noChecksum (version : String)
  | noTargets
  | unusedCmakeArgs (buildSystem : BuildSystem)
  | nothingInstalled
  deriving DecidableEq

def Warning.message : Warning → String
  | .noSummary => "Missing package summary"
  | .noHomepage => "Missing package homepage"
  | .noVersions => "No versions declared; nothing can be fetched"
  | .noChecksum version => s!"Archive version {version} has no checksum and cannot be verified"
  | .noTargets => "Makefile build declares no targets; make runs its default"
  | .unusedCmakeArgs bs => s!"cmake_args are ignored by the {bs.name} build system"
  | .nothingInstalled => "Nothing is installed into the prefix"

/-- A warning if something is the case. -/
def warnIf (wrong : Bool) (w : Warning) : List Warning := if wrong then [w] else []

def checksumWarnings (r : Recipe) : List Warning :=
  (r.versions.filter fun e => !e.isGit && !e.hasChecksum).map fun e => .noChecksum e.version

/-- At most one warning on how the build system is used. -/
def buildSystemWarnings (r : Recipe) : List Warning :=
  let bs := r.package.buildSystem
  if bs = .makefile && r.build.targets.isEmpty && r.build.installTarget.isNone then [.noTargets]
  else warnIf (bs ≠ .cmake && !r.build.cmakeArgs.isEmpty) (.unusedCmakeArgs bs)

/-- Something is installed by an entry, by `make` or by a command. -/
def installs (r : Recipe) : Bool :=
  !r.build.install.isEmpty
    || (r.build.makeInstall && r.package.buildSystem ≠ .generic)
    || r.build.commands.any (·.phase = .install)

def warnings (r : Recipe) : List Warning :=
  warnIf r.package.summary.isNone .noSummary
    ++ warnIf r.package.homepage.isNone .noHomepage
    ++ warnIf r.versions.isEmpty .noVersions
    ++ r.checksumWarnings
    ++ r.buildSystemWarnings
    ++ warnIf (!r.installs) .nothingInstalled

/-- Accepts a recipe whose specification and build section can be read, and warns. -/
def validate (r : Recipe) : Except Error (List Warning) :=
  match r.toSpec with
  | .error e => .error e
  | .ok s =>
    match RecipeHooks.ofRecipe r s with
    | .error e => .error e
    | .ok _ => .ok r.warnings

end PackageRecipes.Recipe
