import PackageRecipes.Repository

/-! What a package declares, as text. -/
namespace PackageRecipes.CommandLine

/-- The text filled up with spaces. -/
def padded (width : Nat) (s : String) : String :=
  s ++ String.ofList (List.replicate (width - s.length) ' ')

def padStart (width : Nat) (s : String) : String :=
  String.ofList (List.replicate (width - s.length) ' ') ++ s

def column : String → String := padded 24

def noName : String := column ""

/-- A heading after a blank line, and what stands below it; nothing without content. -/
def block (heading : String) (lines : List String) : List String :=
  if lines.isEmpty then [] else ["\n" ++ heading] ++ lines

def versionLines (preferred : Option String) (d : VersionDecl) : List String :=
  let marker := if preferred == some d.label then " [preferred]" else ""
  s!"  {column d.label} {d.locator.render}{marker}"
    :: (d.integrity.map fun c => s!"  {noName} {c.render}").toList

def variantLines (d : VariantDecl) : List String :=
  let values := match d.kind with
    | .boolean => "on, off"
    | .enumerated | .multi => ", ".intercalate d.allowedValues
  s!"  {column d.name} [{d.kind.name}] default={d.default} values: {values}"
    :: (d.description.map fun text => s!"  {noName} {text}").toList

def typeList (d : Dependency) : String := ", ".intercalate (d.types.map DependencyType.name)

def dependencyLine (d : Dependency) : String :=
  s!"  {d.render} ({typeList d})"
    ++ if d.condition.isAlways then "" else s!" when {d.condition}"

/-- Everything that a package declares, line by line. -/
def overview (s : PackageSpec) : List String :=
  let preferred := s.preferredVersion?.map VersionDecl.label
  let make := if s.parallel then "" else " (serial make)"
  [s.name] ++ (s.summary.map fun text => s!"  {text}").toList
    ++ (s.homepage.map fun url => s!"  Homepage: {url}").toList
    ++ [s!"  Build system: {s.buildSystem.name}{make}", "\nVersions:"]
    ++ s.versions.flatMap (versionLines preferred)
    ++ block "Variants:" (s.variants.flatMap variantLines)
    ++ block "Dependencies:" (s.dependencies.map dependencyLine)
    ++ block "Conflicts:" (s.conflicts.map fun c => s!"  {c.render}")

end PackageRecipes.CommandLine
