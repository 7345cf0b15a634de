import PackageRecipes.Checksum
import PackageRecipes.Phase
import PackageRecipes.Files.Tree
import PackageRecipes.Files.Glob
import PackageRecipes.Spec.Name
import PackageRecipes.Spec.Variant

/-! Every failure by its cause, and its wording. -/
namespace PackageRecipes

/-- The lists of a recipe's `[build]` table whose entries have conditions. -/
inductive BuildList where
  | targets | environment | dependentEnvironment | copies | edits | appends | cmakeArgs | commands
  | install
  deriving DecidableEq

def BuildList.name : BuildList → String
  | .targets => "targets"
  | .environment => "environment"
  | .dependentEnvironment => "dependent_environment"
  | .copies => "copies"
  | .edits => "edits"
  | .appends => "appends"
  | .cmakeArgs => "cmake_args"
  | .commands => "commands"
  | .install => "install"

/-- The place of a fault in a recipe. -/
inductive Field where
  | version (index : Nat)
  | variant (name : String)
  | variantDefault (name : String)
  | dependsSpec (index : Nat)
  | dependsWhen (index : Nat)
  | conflict (index : Nat)
  | conflictSpec (index : Nat)
  | conflictWhen (index : Nat)
  | buildWhen (list : BuildList) (index : Nat)
  | editPattern (index : Nat)
  | commandArgs (index : Nat)
  deriving DecidableEq

def Field.path : Field → String
  | .version i => s!"versions[{i}]"
  | .variant name => s!"variants[{name}]"
  | .variantDefault name => s!"variants[{name}].default"
  | .dependsSpec i => s!"depends[{i}].spec"
  | .dependsWhen i => s!"depends[{i}].when"
  | .conflict i => s!"conflicts[{i}]"
  | .conflictSpec i => s!"conflicts[{i}].spec"
  | .conflictWhen i => s!"conflicts[{i}].when"
  | .buildWhen list i => s!"build.{list.name}[{i}].when"
  | .editPattern i => s!"build.edits[{i}].pattern"
  | .commandArgs i => s!"build.commands[{i}].args"

/-- Why a variant's default or its list of values is refused. -/
inductive DefaultFault where
  | switchWithValues
  | noValues (kind : VariantKind)
  | value (fault : ValueFault)

def DefaultFault.message : DefaultFault → String
  | .switchWithValues => "boolean variants take no allowed values"
  | .noValues kind => s!"{kind.name} variant has no allowed values"
  | .value fault => fault.message

/-- Why an entry of a recipe is refused. -/
inductive EntryFault where
  | noRepository
  | noReference
  | noArchive
  | manyChecksums
  | checksum (e : ChecksumError)
  | emptyCommand
  | badPattern

/-- A malformed pattern needs no words beyond the field that it stands in. -/
def EntryFault.message? : EntryFault → Option String
  | .noRepository => some "git reference without a repository URL"
  | .noReference => some "git URL without a branch, tag or commit"
  | .noArchive => some "no archive URL and no package url template"
  | .manyChecksums => some "more than one checksum given"
  | .checksum e => some e.message
  | .emptyCommand => some "command is empty"
  | .badPattern => none

/-- Why a configuration cannot be built. -/
inductive ConfigurationFault where
  | otherPackage (name : String)
  | undeclaredVersion (label : String)
  | unknownVariant (name : String)
  | badValue (name : String) (fault : ValueFault)
  | unassigned (name : String)
  | conflict (text : String)

def ConfigurationFault.message : ConfigurationFault → String
  | .otherPackage name => s!"configuration is for '{name}'"
  | .undeclaredVersion label => s!"version '{label}' is not declared"
  | .unknownVariant name => s!"unknown variant '{name}'"
  | .badValue name fault => s!"variant '{name}': {fault.message}"
  | .unassigned name => s!"variant '{name}' is not assigned"
  | .conflict text => s!"conflict {text}"

/-- What was looked for in vain. -/
inductive Missing where
  | recipeDirectory (dir : Path)
  | package (name : String)
  | dependencyPrefix (dependency owner : String)
  | artifact (path : Path)
  | filesLike (path : Path)

def Missing.message : Missing → String
  | .recipeDirectory dir => s!"recipe directory {dir}"
  | .package name => s!"package '{name}' is not in the repository"
  | .dependencyPrefix dependency owner =>
    s!"install prefix of dependency '{dependency}' of {owner}"
  | .artifact path => s!"build artifact {path}"
  | .filesLike path => s!"no files match {path}"

/-- What was to be done when the file system refused. -/
inductive FileAction where
  | create | createPrefix | copy | read | readRecipe | write | openFile | run
  deriving DecidableEq

def FileAction.verb : FileAction → String
  | .create => "create"
  | .createPrefix => "create prefix"
  | .copy => "copy"
  | .read => "read"
  | .readRecipe => "read recipe file"
  | .write => "write"
  | .openFile => "open"
  | .run => "run"

/-- What cannot be read as the language it is written in. -/
inductive Malformed where
  | recipe
  | recipeFile (path : Path)
  | glob (pattern : String) (e : Glob.Error)

def Malformed.message : Malformed → String
  | .recipe => "Invalid recipe"
  | .recipeFile path => s!"{path}: Invalid recipe"
  | .glob pattern e => s!"bad pattern {pattern}: {e.message}"

inductive SettingsFault where
  | unreadable (path : Path)
  | malformed (path : Path)
  | jobsNotNumber (name value : String)
  | zeroJobs

def SettingsFault.message : SettingsFault → String
  | .unreadable path => s!"cannot read {path}"
  | .malformed path => path.text
  | .jobsNotNumber name value => s!"{name} must be a number, got '{value}'"
  | .zeroJobs => "jobs must be at least 1"

inductive Error where
  | duplicateVersion (package : String) (field : Field) (label : String)
  | duplicateVariant (package : String) (field : Field) (variant : String)
  | invalidDefault (package : String) (field : Field) (variant : String) (fault : DefaultFault)
  | malformedCondition (package : String) (field : Field) (cause : Condition.Error)
  | invalidName (name : String) (fault : NameFault)
  | invalidVersion (e : Version.Error)
  | invalidField (package : String) (field : Field) (fault : EntryFault)
  | invalidConfiguration (package : String) (fault : ConfigurationFault)
  | malformed (what : Malformed)
  | duplicatePackage (name first second : String)
  | notFound (what : Missing)
  | checksum (e : ChecksumError)
  | checksumMismatch (path : Path) (expected actual : String)
  | dependencyCycle (path : List String)
  | hookFailed (package : String) (phase : Phase) (cause : Error)
  | settings (fault : SettingsFault)
  /-- The file system refused an action on a path. -/
  | fileRefused (action : FileAction) (path : Path) (fault : FileFault)
  /-- A command ended with another exit code than zero, or was killed. -/
  | commandFailed (line : String) (code : Option Nat) (complaint : String)
  | programFailed (program : String)
  | file (fault : FileFault)

namespace Error

def exitText : Option Nat → String
  | some code => s!"Some({code})"
  | none => "None"

def message : Error → String
  | .duplicateVersion package field label =>
    s!"{package}: duplicate version '{label}' in {field.path}"
  | .duplicateVariant package field variant =>
    s!"{package}: duplicate variant '{variant}' in {field.path}"
  | .invalidDefault package field variant fault =>
    s!"{package}: invalid default for variant '{variant}' ({field.path}): {fault.message}"
  | .malformedCondition package field cause =>
    s!"{package}: malformed condition in {field.path}: {cause.message}"
  | .invalidName name fault => s!"invalid name '{name}': {fault.message}"
  | .invalidVersion e => e.message
  | .invalidField package field fault =>
    match fault.message? with
    | some reason => s!"{package}: invalid {field.path}: {reason}"
    | none => s!"{package}: invalid {field.path}"
  | .invalidConfiguration package fault => s!"{package}: invalid configuration: {fault.message}"
  | .malformed what => s!"parse error: {what.message}"
  | .duplicatePackage name first second => s!"duplicate package '{name}' in {first} and {second}"
  | .notFound what => s!"not found: {what.message}"
  | .checksum e => s!"checksum error: {e.message}"
  | .checksumMismatch path expected actual =>
    s!"checksum mismatch for {path}: expected {expected}, got {actual}"
  | .dependencyCycle path =>
    let arrows := " -> ".intercalate path
    s!"circular dependency detected: {arrows}"
  | .hookFailed package phase cause => s!"{package}: {phase.name} phase failed: {cause.message}"
  | .settings fault => s!"settings error: {fault.message}"
  | .fileRefused action path fault => s!"I/O error: Failed to {action.verb} {path}: {fault.message}"
  | .commandFailed line code complaint =>
    s!"I/O error: {line} failed with exit code {exitText code}\nstderr: {complaint}"
  | .programFailed program => s!"I/O error: {program} failed"
  | .file fault => fault.message

end Error

/-- Turns a refusal of the file system into the failure of an action on a path. -/
def attempt {α : Type} (action : FileAction) (path : Path) (r : Except FileFault α) :
    Except Error α :=
  r.mapError (.fileRefused action path)

end PackageRecipes
