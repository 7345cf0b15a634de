import PackageRecipes.Selection

/-! Why a command fails. -/
namespace PackageRecipes.CommandLine

/-- What a command was about when it failed. -/
inductive Undertaking where
  | loadRecipes (dir : Path)
  | readHooks
  | build (package : String)

def Undertaking.message : Undertaking → String
  | .loadRecipes dir => s!"Failed to load recipes from {dir}"
  | .readHooks => "Failed to compile build hooks"
  | .build package => s!"Failed to build {package}"

inductive Failure where
  | refused (e : Error)
  | selection (e : Selection.Error)
  | during (what : Undertaking) (e : Error)
  | badChecksum (text : String) (e : ChecksumError)
  | badDependencyDir (text : String)
  | repeatedDependencyDir (name : String)
  | noSource (dir : Path)
  | invalidRecipes (count : Nat)
  | warnings (count : Nat)

/-- A failure with its cause; the cause is told once more where it has a cause of its own. -/
def explained : Error → String
  | .malformedCondition package field cause =>
    (Error.malformedCondition package field cause).message ++ ": " ++ cause.message
  | .checksum e => (Error.checksum e).message ++ ": " ++ e.message
  | e => e.message

namespace Failure

/-- The failure of the library that stands behind the failure of a command. -/
def cause? : Failure → Option Error
  | .refused e | .selection (.refused e) | .during _ e => some e
  | _ => none

def message : Failure → String
  | .refused e | .selection (.refused e) => explained e
  | .selection e => e.message
  | .during what e => what.message ++ ": " ++ explained e
  | .badChecksum text e => s!"Invalid checksum '{text}': {e.message}"
  | .badDependencyDir text => s!"Invalid --dep-prefix '{text}': expected name=path"
  | .repeatedDependencyDir name => s!"--dep-prefix given twice for '{name}'"
  | .noSource dir => s!"Source directory {dir} does not exist"
  | .invalidRecipes count => s!"{count} recipe(s) failed validation"
  | .warnings count => s!"{count} warning(s) with --strict"

end Failure

end PackageRecipes.CommandLine
