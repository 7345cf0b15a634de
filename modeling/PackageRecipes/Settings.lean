import PackageRecipes.Data.Reader
import PackageRecipes.Toml.Parser
import PackageRecipes.Build.Environment

/-! Settings from a file, and the variables that count more than the file. -/
namespace PackageRecipes

open Text

structure Settings where
  repo : Option Path
  jobs : Option Nat
  compiler : Option String

namespace Settings

open Data

def default : Settings := ⟨none, none, none⟩

def repoVariable : String := "HPCPKG_REPO"

def jobsVariable : String := "HPCPKG_JOBS"

/-- A count that fits in 64 bits. -/
def readCount : Reader Nat
  | .integer n => if 0 ≤ n then some n.toNat else none
  | _ => none

/-- The settings that structured data describes; a part without meaning is refused. -/
def ofData? : Reader Settings := fun d => do
  let r ← readRecord ["repo", "jobs", "compiler"] d
  guard (r.all fun (k, _) => ["repo", "jobs", "compiler"].contains k)
  return {
    repo := (← optional r "repo" readString).map Path.mk
    jobs := ← optional r "jobs" readCount
    compiler := ← optional r "compiler" readString }

/-- Reads a settings file; without a file every setting is left open. -/
def loadFrom (files : FileTree) (path : Path) : Except Error Settings :=
  if !files.exists? path then .ok default
  else
    match files.readText path with
    | .error _ => .error (.settings (.unreadable path))
    | .ok text =>
      match (Toml.parse? text).bind ofData? with
      | some s => .ok s
      | none => .error (.settings (.malformed path))

/-- A count in decimal digits, with a plus sign or without. -/
def parseCount? (s : String) : Option Nat :=
  let digits := match s.toList with
    | '+' :: rest => rest
    | cs => cs
  if !digits.isEmpty && digits.all Char.isDigit && valueInBase 10 digits < wordBound then
    some (valueInBase 10 digits)
  else none

/-- A variable that is set to something. -/
def given? (env : ProcessEnv) (name : String) : Option String := (env.get? name).filter (· ≠ "")

/-- Variables count more than the file, and there must be some job. -/
def withOverrides (s : Settings) (env : ProcessEnv) : Except Error Settings :=
  let repo := ((given? env repoVariable).map Path.mk) <|> s.repo
  let jobs : Except Error (Option Nat) :=
    match given? env jobsVariable with
    | none => .ok s.jobs
    | some text =>
      match parseCount? text with
      | some n => .ok (some n)
      | none => .error (.settings (.jobsNotNumber jobsVariable text))
  match jobs with
  | .error e => .error e
  | .ok (some 0) => .error (.settings .zeroJobs)
  | .ok jobs => .ok ⟨repo, jobs, s.compiler⟩

/-- The settings file in a directory of configuration files. -/
def fileIn (configDir : Path) : Path := configDir / "hpcpkg" / "config.toml"

def load (files : FileTree) (env : ProcessEnv) (configDir : Option Path) : Except Error Settings :=
  let fromFile : Except Error Settings :=
    match configDir with
    | none => .ok default
    | some dir => loadFrom files (fileIn dir)
  match fromFile with
  | .error e => .error e
  | .ok s => s.withOverrides env

/-- The jobs to run at once: as set, or one for each processor. -/
def jobCount (s : Settings) (processors : Nat) : Nat := s.jobs.getD processors

def repoDir (s : Settings) : Path := s.repo.getD ⟨"recipes"⟩

end Settings

/-- A compiler's text that cannot be read, as a failure of the library. -/
def Compiler.Error.general : Compiler.Error → PackageRecipes.Error
  | .version e => .invalidVersion e
  | .emptyName input => .invalidName input .emptyCompiler

def Settings.compiler? (s : Settings) : Except Error (Option Compiler) :=
  match s.compiler with
  | none => .ok none
  | some text => ((Compiler.parse text).map some).mapError Compiler.Error.general

end PackageRecipes
