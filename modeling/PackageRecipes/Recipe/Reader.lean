import PackageRecipes.Data.Reader
import PackageRecipes.Toml.Parser
import PackageRecipes.Recipe.Basic

/-! Reading recipes. Parts that the format does not know are passed over. -/
namespace PackageRecipes.Recipe

open Data

def readOneOrMany {α : Type} (read : Reader α) : Reader (OneOrMany α) := fun d =>
  match read d with
  | some v => some (.one v)
  | none => (readList read d).map .many

def readWhen (r : Record) : Option When := optional r "when" (readOneOrMany readString)

def readFlag (r : Record) (name : String) (default : Bool) : Option Bool :=
  withDefault r name default readBool

def readStrings : Reader (List String) := readList readString

def readEntries {α : Type} (r : Record) (name : String) (read : Reader α) : Option (List α) :=
  withDefault r name [] (readList read)

def readBuildSystem : Reader BuildSystem :=
  readWord [("makefile", .makefile), ("cmake", .cmake), ("generic", .generic)]

def readPackage : Reader PackageSection := fun d => do
  let r ← readRecord ["name", "summary", "homepage", "build_system", "parallel", "url", "git"] d
  return {
    name := ← required r "name" readString
    summary := ← optional r "summary" readString
    homepage := ← optional r "homepage" readString
    buildSystem := ← withDefault r "build_system" .generic readBuildSystem
    parallel := ← readFlag r "parallel" true
    url := ← optional r "url" readString
    git := ← optional r "git" readString }

def readVersion : Reader VersionEntry := fun d => do
  let r ← readRecord ["version", "url", "sha256", "sha512", "md5", "checksum", "git", "branch", "tag",
    "commit", "submodules", "preferred"] d
  return {
    version := ← required r "version" readString
    url := ← optional r "url" readString
    sha256 := ← optional r "sha256" readString
    sha512 := ← optional r "sha512" readString
    md5 := ← optional r "md5" readString
    checksum := ← optional r "checksum" readString
    git := ← optional r "git" readString
    branch := ← optional r "branch" readString
    tag := ← optional r "tag" readString
    commit := ← optional r "commit" readString
    submodules := ← readFlag r "submodules" false
    preferred := ← readFlag r "preferred" false }

def readDefault : Reader DefaultValue
  | .bool b => some (.bool b)
  | .string s => some (.single s)
  | d => (readStrings d).map .list

def readVariant : Reader VariantEntry := fun d => do
  let r ← readRecord ["name", "default", "values", "multi", "description"] d
  return {
    name := ← required r "name" readString
    default := ← required r "default" readDefault
    values := ← optional r "values" readStrings
    multi := ← readFlag r "multi" false
    description := ← optional r "description" readString }

def readDependencyType : Reader DependencyType :=
  readWord (DependencyType.everyType.map fun t => (t.name, t))

def readDepends : Reader DependsEntry := fun d => do
  let r ← readRecord ["spec", "when", "type"] d
  return {
    spec := ← required r "spec" readString
    when := ← readWhen r
    types := ← optional r "type" (readOneOrMany readDependencyType) }

def readConflict : Reader ConflictEntry := fun d => do
  let r ← readRecord ["spec", "when", "msg"] d
  return {
    spec := ← required r "spec" readString
    when := ← readWhen r
    message := ← optional r "msg" readString }

def readTarget : Reader TargetEntry := fun d => do
  let r ← readRecord ["target", "when"] d
  return { target := ← required r "target" readString, when := ← readWhen r }

def readAction : Reader EnvAction :=
  readWord (EnvAction.everyAction.map fun a => (a.name, a))

def readEnv : Reader EnvEntry := fun d => do
  let r ← readRecord ["name", "value", "action", "when"] d
  return {
    name := ← required r "name" readString
    value := ← required r "value" readString
    action := ← withDefault r "action" .set readAction
    when := ← readWhen r }

def readCopy : Reader CopyEntry := fun d => do
  let r ← readRecord ["from", "to", "when"] d
  return {
    source := ← required r "from" readString
    target := ← required r "to" readString
    when := ← readWhen r }

def readEdit : Reader EditEntry := fun d => do
  let r ← readRecord ["file", "pattern", "replacement", "literal", "when"] d
  return {
    file := ← required r "file" readString
    pattern := ← required r "pattern" readString
    replacement := ← required r "replacement" readString
    literal := ← readFlag r "literal" false
    when := ← readWhen r }

def readAppend : Reader AppendEntry := fun d => do
  let r ← readRecord ["file", "lines", "create", "when"] d
  return {
    file := ← required r "file" readString
    lines := ← required r "lines" readStrings
    create := ← readFlag r "create" false
    when := ← readWhen r }

def readArgs : Reader ArgsEntry := fun d => do
  let r ← readRecord ["args", "when"] d
  return { args := ← required r "args" readStrings, when := ← readWhen r }

def readPhase : Reader CommandPhase :=
  readWord (CommandPhase.everyPhase.map fun p => (p.name, p))

def readCommand : Reader CommandEntry := fun d => do
  let r ← readRecord ["phase", "args", "workdir", "when"] d
  return {
    phase := ← required r "phase" readPhase
    args := ← required r "args" readStrings
    workdir := ← optional r "workdir" readString
    when := ← readWhen r }

def readInstall : Reader InstallEntry := fun d => do
  let r ← readRecord ["from", "to", "when"] d
  return {
    source := ← required r "from" readString
    target := ← required r "to" readString
    when := ← readWhen r }

def readBuild : Reader BuildSection := fun d => do
  let r ← readRecord ["workdir", "makefile", "make_args", "targets", "install_target", "make_install",
    "environment", "dependent_environment", "copies", "edits", "appends", "cmake_args", "commands",
    "install"] d
  return {
    workdir := ← optional r "workdir" readString
    makefile := ← optional r "makefile" readString
    makeArgs := ← readEntries r "make_args" readString
    targets := ← readEntries r "targets" readTarget
    installTarget := ← optional r "install_target" readString
    makeInstall := ← readFlag r "make_install" true
    environment := ← readEntries r "environment" readEnv
    dependentEnvironment := ← readEntries r "dependent_environment" readEnv
    copies := ← readEntries r "copies" readCopy
    edits := ← readEntries r "edits" readEdit
    appends := ← readEntries r "appends" readAppend
    cmakeArgs := ← readEntries r "cmake_args" readArgs
    commands := ← readEntries r "commands" readCommand
    install := ← readEntries r "install" readInstall }

/-- The recipe that structured data describes. -/
def ofData? : Reader Recipe := fun d => do
  let r ← readRecord ["package", "versions", "variants", "depends", "conflicts", "build"] d
  return {
    package := ← required r "package" readPackage
    versions := ← readEntries r "versions" readVersion
    variants := ← readEntries r "variants" readVariant
    depends := ← readEntries r "depends" readDepends
    conflicts := ← readEntries r "conflicts" readConflict
    build := ← withDefault r "build" .empty readBuild }

/-- Reads a recipe from the text of a TOML document. -/
def parse (text : String) : Except Error Recipe :=
  match (Toml.parse? text).bind ofData? with
  | some r => .ok r
  | none => .error (.malformed .recipe)

/-- Reads a recipe from a file. -/
def parseFile (files : FileTree) (path : Path) : Except Error Recipe :=
  match attempt .readRecipe path (files.readText path) with
  | .error e => .error e
  | .ok text =>
    match (Toml.parse? text).bind ofData? with
    | some r => .ok r
    | none => .error (.malformed (.recipeFile path))

end PackageRecipes.Recipe
