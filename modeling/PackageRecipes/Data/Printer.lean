import PackageRecipes.Data.Reader
import PackageRecipes.Spec.Basic

/-! Configurations and specifications as structured data. -/
namespace PackageRecipes

open Data

/-- A field that is left out without a value. -/
def optionalField (name : String) (d : Option Data) : List (String × Data) :=
  (d.map fun d => (name, d)).toList

def Data.ofOption (s : Option String) : Data := (s.map Data.string).getD .null

def Data.strings (xs : List String) : Data := .array (xs.map .string)

def VariantValue.toData : VariantValue → Data
  | .bool b => .bool b
  | .single v => .string v
  | .multi vs => .strings vs.toList

def VariantValue.ofData? : Reader VariantValue
  | .bool b => some (.bool b)
  | .string v => some (.single v)
  | d => (readList readString d).map fun vs => .multi (.ofList vs)

def Version.ofData? : Reader Version := fun d =>
  (readString d).bind fun s => (Version.parse s).toOption

namespace Compiler

def toData (c : Compiler) : Data :=
  .table (("name", .string c.name) :: optionalField "version" (c.version.map fun v => .string v.label))

def ofData? : Reader Compiler := fun d => do
  let r ← readRecord ["name", "version"] d
  return ⟨← required r "name" readString, ← Data.optional r "version" Version.ofData?⟩

end Compiler

namespace Configuration

mutual

/-- Parts without content are left out, but for the variants. -/
def toData : Configuration → Data
  | ⟨name, version, variants, compiler, ⟨children⟩⟩ =>
    .table ([("name", .string name), ("version", .string version.label),
        ("variants", .table (variants.entries.map fun (k, v) => (k, v.toData)))]
      ++ optionalField "compiler" (compiler.map Compiler.toData)
      ++ if children.isEmpty then [] else [("dependencies", .table (childrenData children))])

def childrenData : List (String × Configuration) → List (String × Data)
  | [] => []
  | (k, c) :: rest => (k, toData c) :: childrenData rest

end

def readVariants : Reader (NameMap VariantValue)
  | .table fields => do
    let entries ← fields.mapM fun (k, d) => do return (k, ← VariantValue.ofData? d)
    return .ofList entries
  | _ => none

/-- The parts of a configuration in their order. -/
def parts : List String := ["name", "version", "variants", "compiler", "dependencies"]

/-- The configuration at the root, with its dependencies given. -/
def ofRecord? (r : Record) (children : NameMap Configuration) : Option Configuration := do
  return {
    name := ← required r "name" readString
    version := ← required r "version" Version.ofData?
    variants := ← withDefault r "variants" .empty readVariants
    compiler := ← Data.optional r "compiler" Compiler.ofData?
    dependencies := children }

mutual

/-- Reads a configuration; a missing part is empty, and unknown parts are passed over. -/
def ofData? : Data → Option Configuration
  | .table fields => do ofRecord? fields (← ofFields? fields)
  | .array items => do ofRecord? (parts.zip items) (← ofFifth? items)
  | _ => none

/-- The dependencies among the parts of a table. -/
def ofFields? : List (String × Data) → Option (NameMap Configuration)
  | [] => some .empty
  | (k, d) :: rest =>
    if k = "dependencies" then
      match d with
      | .table fields => ofChildren? fields
      | _ => none
    else ofFields? rest

/-- The dependencies as the fifth part of an array. -/
def ofFifth? : List Data → Option (NameMap Configuration)
  | _ :: _ :: _ :: _ :: .table fields :: _ => ofChildren? fields
  | _ :: _ :: _ :: _ :: _ :: _ => none
  | _ => some .empty

def ofChildren? : List (String × Data) → Option (NameMap Configuration)
  | [] => some .empty
  | (k, d) :: rest =>
    match ofData? d, ofChildren? rest with
    | some c, some m => some (if m.contains k then m else m.insert k c)
    | _, _ => none

end

end Configuration

namespace SourceLocator

def toData : SourceLocator → Data
  | .archive url => .table [("kind", .string "archive"), ("url", .string url)]
  | .git url reference submodules =>
    .table ([("kind", .string "git"), ("url", .string url),
        ("reference", .table [(reference.kind, .string reference.name)])]
      ++ if submodules then [("submodules", .bool true)] else [])

end SourceLocator

def VersionDecl.toData (d : VersionDecl) : Data :=
  .table ([("version", .string d.version.label), ("locator", d.locator.toData)]
    ++ optionalField "integrity" (d.integrity.map fun c => .string c.render)
    ++ [("preferred", .bool d.preferred)])

def VariantDecl.toData (d : VariantDecl) : Data :=
  .table ([("name", .string d.name), ("kind", .string d.kind.name), ("default", d.default.toData)]
    ++ (if d.allowedValues.isEmpty then [] else [("allowed_values", .strings d.allowedValues)])
    ++ optionalField "description" (d.description.map .string))

def Dependency.toData (d : Dependency) : Data :=
  .table ([("target", .string d.target)]
    ++ (if d.constraint.isEmpty then []
        else [("constraint", .strings (d.constraint.map VersionRange.render))])
    ++ (if d.requirements.isEmpty then []
        else [("variant_requirements", .strings (d.requirements.map Condition.render))])
    ++ [("when", .string d.condition.render), ("types", .strings (d.types.map DependencyType.name))])

def Conflict.toData (c : Conflict) : Data :=
  .table (("condition", .string c.condition.render)
    :: optionalField "message" (c.message.map .string))

def PackageSpec.toData (s : PackageSpec) : Data :=
  .table [("name", .string s.name), ("summary", .ofOption s.summary),
    ("homepage", .ofOption s.homepage), ("build_system", .string s.buildSystem.name),
    ("parallel", .bool s.parallel), ("versions", .array (s.versions.map VersionDecl.toData)),
    ("variants", .array (s.variants.map VariantDecl.toData)),
    ("dependencies", .array (s.dependencies.map Dependency.toData)),
    ("conflicts", .array (s.conflicts.map Conflict.toData))]

end PackageRecipes
