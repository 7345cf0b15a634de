import PackageRecipes.Selection
import PackageRecipes.CommandLine.Options

/-! Commands and how they are given. -/
namespace PackageRecipes.CommandLine

structure BuildOptions where
  package : String
  selection : Selection
  installDir : Path
  sourceDir : Path
  /-- Directories of dependencies, each as `name=path`. -/
  dependencyDirs : List String
  jobs : Option Nat
  isDry : Bool

inductive Command where
  | info (package : String) (json : Bool)
  | check (strict : Bool)
  | deps (package : String) (selection : Selection) (json : Bool)
  | order (package : String) (selection : Selection)
  | build (options : BuildOptions)
  | verify (file : Path) (checksum : String)

/-- A command, and the recipe directory if one is given with it. -/
structure Request where
  repo : Option Path
  command : Command

/-- Options that may stand before the command or after it. -/
def globalOptions : Grammar := [.path "repo", (OptionDecl.flag "verbose").withLetter 'v']

def selectionOptions : Grammar :=
  [.text "version", { OptionDecl.texts "variant" with takesAnything := true }, .text "compiler"]

def buildOptions : Grammar :=
  selectionOptions
    ++ [.path "prefix", .path "source", .texts "dep-prefix",
      { (OptionDecl.text "jobs").withLetter 'j' with
        allows := fun s => (Settings.parseCount? s).isSome },
      .flag "dry-run"]

def selectionOf (a : Arguments) : Selection :=
  ⟨a.value? "version", a.values "variant", a.value? "compiler"⟩

/-- The options that a command knows besides the global ones. -/
def optionsOf : String → Option Grammar
  | "info" => some [.flag "json"]
  | "check" => some [.flag "strict"]
  | "deps" => some (selectionOptions ++ [.flag "json"])
  | "order" => some selectionOptions
  | "build" => some buildOptions
  | "verify" => some []
  | _ => none

/-- The command of a name, if it is given what it needs and nothing more. -/
def commandOf? (name : String) (a : Arguments) : Option Command :=
  match name, a.operands with
  | "info", [package] => some (.info package (a.has "json"))
  | "check", [] => some (.check (a.has "strict"))
  | "deps", [package] => some (.deps package (selectionOf a) (a.has "json"))
  | "order", [package] => some (.order package (selectionOf a))
  | "build", [package] =>
    match a.value? "prefix", a.value? "source" with
    | some installDir, some sourceDir =>
      some (.build {
        package
        selection := selectionOf a
        installDir := ⟨installDir⟩
        sourceDir := ⟨sourceDir⟩
        dependencyDirs := a.values "dep-prefix"
        jobs := (a.value? "jobs").bind Settings.parseCount?
        isDry := a.has "dry-run" })
    | _, _ => none
  | "verify", [file, checksum] => if file = "" then none else some (.verify ⟨file⟩ checksum)
  | _, _ => none

/-- Reads the arguments of a request. An option after the command counts more than one before it. -/
def parse? (args : List String) : Option Request := do
  let before ← readArguments globalOptions true args
  match before.operands with
  | [] => none
  | name :: rest =>
    let options ← optionsOf name
    let a ← readArguments (globalOptions ++ options) false rest
    let command ← commandOf? name a
    return ⟨(a.value? "repo" <|> before.value? "repo").map Path.mk, command⟩

end PackageRecipes.CommandLine
