import PackageRecipes.Recipe.Declare
import PackageRecipes.Regex.Replace

/-! The `[build]` section of a recipe with its conditions and patterns read. -/
namespace PackageRecipes

/-- An entry and the condition under which it counts. -/
structure Step (α : Type) where
  condition : Condition
  entry : α

/-- The entries that count under a configuration. -/
def activeEntries {α : Type} (steps : List (Step α)) (config : Configuration) : List α :=
  (steps.filter (·.condition.holds config)).map Step.entry

structure CompiledEdit where
  file : String
  pattern : Regex
  replacement : String

structure RecipeHooks where
  package : String
  buildSystem : BuildSystem
  workdir : Option String
  makefile : Option String
  makeArgs : List String
  installTarget : String
  makeInstall : Bool
  targets : List (Step String)
  environment : List (Step EnvEntry)
  dependentEnvironment : List (Step EnvEntry)
  copies : List (Step CopyEntry)
  edits : List (Step CompiledEdit)
  appends : List (Step AppendEntry)
  cmakeArgs : List (Step (List String))
  commands : List (Step CommandEntry)
  install : List (Step InstallEntry)

namespace RecipeHooks

/-- Reads the condition and the content of each entry, counting from `index`. -/
def compileFrom {α β : Type} (s : PackageSpec) (list : BuildList) (when_ : α → When)
    (content : Nat → α → Except Error β) (index : Nat) : List α → Except Error (List (Step β))
  | [] => .ok []
  | entry :: rest =>
    match s.parseWhen (when_ entry) (.buildWhen list index) with
    | .error e => .error e
    | .ok condition =>
      match content index entry with
      | .error e => .error e
      | .ok c => (compileFrom s list when_ content (index + 1) rest).map (⟨condition, c⟩ :: ·)

def compile {α β : Type} (s : PackageSpec) (list : BuildList) (when_ : α → When)
    (content : Nat → α → Except Error β) (entries : List α) : Except Error (List (Step β)) :=
  compileFrom s list when_ content 0 entries

/-- The conditions alone; the entries stay as they are. -/
def conditioned {α : Type} (s : PackageSpec) (list : BuildList) (when_ : α → When)
    (entries : List α) : Except Error (List (Step α)) :=
  compile s list when_ (fun _ e => .ok e) entries

/-- The regular expression of an edit; a literal edit looks for its text as it is. -/
def sourceOf (e : EditEntry) : String :=
  if e.literal then String.ofList (Regex.escaped e.pattern.toList) else e.pattern

def compileEdit (package : String) (index : Nat) (e : EditEntry) : Except Error CompiledEdit :=
  match Regex.parse? (sourceOf e) with
  | some r => .ok ⟨e.file, r, e.replacement⟩
  | none => .error (.invalidField package (.editPattern index) .badPattern)

def checkCommand (package : String) (index : Nat) (c : CommandEntry) :
    Except Error CommandEntry :=
  if c.args.isEmpty then .error (.invalidField package (.commandArgs index) .emptyCommand)
  else .ok c

/-- The hooks of a recipe with its specification. -/
def ofRecipe (r : Recipe) (s : PackageSpec) : Except Error RecipeHooks := do
  let b := r.build
  let edits ← compile s .edits EditEntry.when (compileEdit s.name) b.edits
  let commands ← compile s .commands CommandEntry.when (checkCommand s.name) b.commands
  let targets ← compile s .targets TargetEntry.when (fun _ t => .ok t.target) b.targets
  let environment ← conditioned s .environment EnvEntry.when b.environment
  let dependentEnvironment ←
    conditioned s .dependentEnvironment EnvEntry.when b.dependentEnvironment
  let copies ← conditioned s .copies CopyEntry.when b.copies
  let appends ← conditioned s .appends AppendEntry.when b.appends
  let cmakeArgs ← compile s .cmakeArgs ArgsEntry.when (fun _ a => .ok a.args) b.cmakeArgs
  let install ← conditioned s .install InstallEntry.when b.install
  return {
    package := s.name
    buildSystem := s.buildSystem
    workdir := b.workdir
    makefile := b.makefile
    makeArgs := b.makeArgs
    installTarget := b.installTarget.getD "install"
    makeInstall := b.makeInstall
    targets, environment, dependentEnvironment, copies, edits, appends, cmakeArgs, commands, install }

end RecipeHooks

end PackageRecipes
