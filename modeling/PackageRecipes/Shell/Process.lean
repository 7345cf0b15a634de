import PackageRecipes.NameMap
import PackageRecipes.Files.Tree

/-! Programs as functions from what a process starts with to what it leaves. -/
namespace PackageRecipes.Shell

inductive Stream where
  | output | complaint
  deriving DecidableEq

/-- What a process starts with. -/
structure Process where
  args : List String
  cwd : Path
  env : NameMap String
  input : ByteArray
  files : FileTree

/-- What a process leaves; a killed one has no exit code. -/
structure Outcome where
  files : FileTree
  written : List (Stream × ByteArray)
  code : Option Nat

abbrev Program := Process → Outcome

namespace Process

/-- Ends without a word. -/
def exit (p : Process) (code : Nat) : Outcome := ⟨p.files, [], some code⟩

def print (p : Process) (content : ByteArray) : Outcome := ⟨p.files, [(.output, content)], some 0⟩

def printLines (p : Process) (lines : List String) : Outcome :=
  p.print (String.join (lines.map (· ++ "\n"))).toUTF8

/-- Ends with a line of complaint. -/
def complain (p : Process) (line : String) (code : Nat) : Outcome :=
  ⟨p.files, [(.complaint, (line ++ "\n").toUTF8)], some code⟩

/-- Ends with changed files. -/
def leave (_ : Process) (files : FileTree) : Outcome := ⟨files, [], some 0⟩

/-- A path as the process sees it. -/
def path (p : Process) (name : String) : Path := if name = "" then ⟨""⟩ else p.cwd.join ⟨name⟩

/-- Does the same for each name, one after another; the highest exit code counts. -/
def forEach (p : Process) (names : List String) (step : Process → String → Outcome) : Outcome :=
  names.foldl
    (fun (o : Outcome) name =>
      let r := step { p with files := o.files } name
      ⟨r.files, o.written ++ r.written, some (max (o.code.getD 0) (r.code.getD 0))⟩)
    (p.exit 0)

/-- The letters of the options among the arguments, and the other arguments. -/
def options : List String → List Char × List String
  | [] => ([], [])
  | arg :: rest =>
    if arg = "--" then ([], rest)
    else match arg.toList with
      | '-' :: c :: letters =>
        let (more, operands) := options rest
        (c :: letters ++ more, operands)
      | _ =>
        let (letters, operands) := options rest
        (letters, arg :: operands)

end Process

/-- The words for a fault of the file system. -/
def reason : FileFault → String
  | .noSuchFile => "No such file or directory"
  | .fileExists => "File exists"
  | .notDirectory => "Not a directory"
  | .isDirectory => "Is a directory"
  | .invalidText => "Invalid argument"
  | .notRegular => "Invalid argument"

end PackageRecipes.Shell
