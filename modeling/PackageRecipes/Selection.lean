import PackageRecipes.Settings
import PackageRecipes.Spec.Basic

/-! Configurations as they are asked for: what is left open takes its default. -/
namespace PackageRecipes

open Text

/-- A version, assignments of variants and a compiler, as they are written. -/
structure Selection where
  version : Option String
  variants : List String
  compiler : Option String

namespace Selection

def default : Selection := ⟨none, [], none⟩

inductive Error where
  | refused (e : PackageRecipes.Error)
  | noVersions (package : String)
  | undeclared (package label : String) (known : List String)
  | badVariant (text : String)

def Error.message : Error → String
  | .refused e => e.message
  | .noVersions package => s!"{package} declares no versions"
  | .undeclared package label known =>
    let labels := ", ".intercalate known
    s!"{package} has no version '{label}' (known: {labels})"
  | .badVariant text => s!"Invalid variant '{text}': expected name=value, +name or ~name"

/-- Reads `+name`, `~name`, `-name` or `name=value`. -/
def parseVariant (text : String) : Except Error (String × VariantValue) :=
  match text.toList with
  | '+' :: name => .ok (String.ofList name, .bool true)
  | '~' :: name | '-' :: name => .ok (String.ofList name, .bool false)
  | cs =>
    match cutAt '=' cs with
    | some (c :: name, value) =>
      .ok (String.ofList (trim (c :: name)), VariantValue.parse (String.ofList value))
    | _ => .error (.badVariant text)

/-- A single value for a variant that takes sets stands for the set of that value. -/
def suited (s : PackageSpec) (name : String) (value : VariantValue) : VariantValue :=
  match (s.variant? name).map VariantDecl.kind, value with
  | some .multi, .single v => .multi (.ofList [v])
  | _, value => value

/-- The version that is asked for; it has to be declared. -/
def chooseVersion (s : PackageSpec) (label : String) : Except Error Version :=
  match Version.parse label with
  | .error e => .error (.refused (.invalidVersion e))
  | .ok v =>
    if (s.version? v).isSome then .ok v
    else .error (.undeclared s.name label (s.versions.map VersionDecl.label))

def assign (s : PackageSpec) (c : Configuration) (text : String) : Except Error Configuration :=
  (parseVariant text).map fun (name, value) => c.withVariant name (suited s name value)

/-- The compiler that is asked for, or else the one of the settings. -/
def chooseCompiler (selection : Selection) (settings : Settings) :
    Except PackageRecipes.Error (Option Compiler) :=
  match selection.compiler with
  | some text => ((Compiler.parse text).map some).mapError Compiler.Error.general
  | none => settings.compiler?

/-- The default configuration with the selected parts put in, if the package can be built so. -/
def apply (selection : Selection) (s : PackageSpec) (settings : Settings) :
    Except Error Configuration := do
  let start ← match s.defaultConfiguration? with
    | some c => .ok c
    | none => .error (.noVersions s.name)
  let versioned ← match selection.version with
    | some label => (chooseVersion s label).map fun v => { start with version := v }
    | none => .ok start
  let assigned ← selection.variants.foldlM (assign s) versioned
  let compiler ← (selection.chooseCompiler settings).mapError .refused
  let complete := compiler.elim assigned assigned.withCompiler
  (s.checkConfiguration complete).mapError .refused
  return complete

end Selection

end PackageRecipes
