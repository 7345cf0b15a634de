import PackageRecipes.Spec.Basic
import PackageRecipes.Template

/-! Recipes as they are written. -/
namespace PackageRecipes

inductive OneOrMany (α : Type) where
  | one (value : α)
  | many (values : List α)

def OneOrMany.toList {α : Type} : OneOrMany α → List α
  | .one v => [v]
  | .many vs => vs

/-- A condition, or alternative conditions; without any the entry always counts. -/
abbrev When := Option (OneOrMany String)

structure PackageSection where
  name : String
  summary : Option String
  homepage : Option String
  buildSystem : BuildSystem
  parallel : Bool
  url : Option String
  git : Option String

structure VersionEntry where
  version : String
  url : Option String
  sha256 : Option String
  sha512 : Option String
  md5 : Option String
  checksum : Option String
  git : Option String
  branch : Option String
  tag : Option String
  commit : Option String
  submodules : Bool
  preferred : Bool

namespace VersionEntry

def isGit (e : VersionEntry) : Bool := e.branch.isSome || e.tag.isSome || e.commit.isSome

def hasChecksum (e : VersionEntry) : Bool :=
  e.sha256.isSome || e.sha512.isSome || e.md5.isSome || e.checksum.isSome

end VersionEntry

inductive DefaultValue where
  | bool (on : Bool)
  | single (value : String)
  | list (values : List String)

structure VariantEntry where
  name : String
  default : DefaultValue
  values : Option (List String)
  multi : Bool
  description : Option String

structure DependsEntry where
  spec : String
  when : When
  types : Option (OneOrMany DependencyType)

structure ConflictEntry where
  spec : String
  when : When
  message : Option String

structure TargetEntry where
  target : String
  when : When

inductive EnvAction where
  | set | prepend | append
  deriving DecidableEq

def EnvAction.name : EnvAction → String
  | .set => "set"
  | .prepend => "prepend"
  | .append => "append"

def EnvAction.everyAction : List EnvAction := [.set, .prepend, .append]

structure EnvEntry where
  name : String
  value : String
  action : EnvAction
  when : When

structure CopyEntry where
  source : String
  target : String
  when : When

structure EditEntry where
  file : String
  pattern : String
  replacement : String
  literal : Bool
  when : When

structure AppendEntry where
  file : String
  lines : List String
  create : Bool
  when : When

structure ArgsEntry where
  args : List String
  when : When

/-- The phases that commands can be given for. -/
inductive CommandPhase where
  | edit | configure | build | install
  deriving DecidableEq

def CommandPhase.name : CommandPhase → String
  | .edit => "edit"
  | .configure => "configure"
  | .build => "build"
  | .install => "install"

def CommandPhase.everyPhase : List CommandPhase := [.edit, .configure, .build, .install]

structure CommandEntry where
  phase : CommandPhase
  args : List String
  workdir : Option String
  when : When

structure InstallEntry where
  source : String
  target : String
  when : When

structure BuildSection where
  workdir : Option String
  makefile : Option String
  makeArgs : List String
  targets : List TargetEntry
  installTarget : Option String
  makeInstall : Bool
  environment : List EnvEntry
  dependentEnvironment : List EnvEntry
  copies : List CopyEntry
  edits : List EditEntry
  appends : List AppendEntry
  cmakeArgs : List ArgsEntry
  commands : List CommandEntry
  install : List InstallEntry

def BuildSection.empty : BuildSection :=
  ⟨none, none, [], [], none, true, [], [], [], [], [], [], [], []⟩

structure Recipe where
  package : PackageSection
  versions : List VersionEntry
  variants : List VariantEntry
  depends : List DependsEntry
  conflicts : List ConflictEntry
  build : BuildSection

/-- The archive of a version by the package's template. -/
def Recipe.archiveUrl? (r : Recipe) (version : String) : Option String :=
  r.package.url.map fun template =>
    Template.substitute template fun key =>
      if key = "version" then some version
      else if key = "name" then some r.package.name
      else none

end PackageRecipes
