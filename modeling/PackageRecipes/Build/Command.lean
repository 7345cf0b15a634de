import PackageRecipes.Build.Environment
import PackageRecipes.Files.Step

/-! Commands that a build issues, and who runs them. -/
namespace PackageRecipes

/-- A command with its working directory and the variables that the build sets for it. -/
structure Invocation where
  program : String
  args : List String
  cwd : Path
  env : NameMap String
  deriving DecidableEq

namespace Invocation

def commandLine (i : Invocation) : String := " ".intercalate (i.program :: i.args)

def render (i : Invocation) : String := s!"(cd {i.cwd} && {i.commandLine})"

end Invocation

/-- Runs commands: given those that were issued before, a command succeeds or fails and leaves the
files changed. A dry run keeps builds from touching files themselves. -/
structure Runner where
  isDry : Bool
  run : List Invocation → Invocation → FileTree → Except Error Unit × FileTree

namespace Runner

/-- Takes every command and does nothing. -/
def recording : Runner := ⟨false, fun _ _ files => (.ok (), files)⟩

/-- Takes every command and does nothing, in place of a real build. -/
def dry : Runner := ⟨true, fun _ _ files => (.ok (), files)⟩

end Runner

/-- What a build can change, and what it has issued so far. -/
structure World where
  files : FileTree
  issued : List Invocation

/-- A step of a build: it changes the world, also when it fails. -/
abbrev Action := Update World

namespace Action

/-- A step on the files alone. -/
def onFiles {α : Type} (s : FileStep α) : Action α :=
  ExceptT.mk fun w =>
    let (r, files) := s.runOn w.files
    (r, { w with files := files })

/-- Hands a command to the runner. -/
def issue (runner : Runner) (i : Invocation) : Action Unit :=
  ExceptT.mk fun w =>
    let (result, files) := runner.run w.issued i w.files
    (result, ⟨files, w.issued ++ [i]⟩)

end Action

end PackageRecipes
