import PackageRecipes.Condition.Parser

/-! Declared dependencies and conflicts. -/
namespace PackageRecipes

/-- When a dependency is needed. -/
inductive DependencyType where
  | build | link | run | test
  deriving DecidableEq

namespace DependencyType

def name : DependencyType → String
  | .build => "build"
  | .link => "link"
  | .run => "run"
  | .test => "test"

def everyType : List DependencyType := [.build, .link, .run, .test]

/-- The types of a list, each once and in their fixed order. -/
def sorted (types : List DependencyType) : List DependencyType := everyType.filter types.contains

end DependencyType

structure Dependency where
  target : String
  constraint : List VersionRange
  requirements : List Condition
  condition : Condition
  types : List DependencyType

namespace Dependency

/-- The dependency that a requirement describes, needed to build and to link. -/
def ofRequirement (r : Requirement) (condition : Condition) : Dependency :=
  ⟨r.target, r.versions, r.predicates, condition, [.build, .link]⟩

def isActive (d : Dependency) (c : Configuration) : Bool := d.condition.holds c

def isSatisfiedBy (d : Dependency) (chosen : Configuration) : Bool :=
  chosen.name == d.target
    && (d.constraint.isEmpty || d.constraint.any (·.contains chosen.version))
    && d.requirements.all (·.holds chosen)

def isBuildOnly (d : Dependency) : Bool := d.types.all (· == .build)

def render (d : Dependency) : String :=
  d.target ++ (if d.constraint.isEmpty then "" else "@" ++ Condition.renderVersions d.constraint)
    ++ String.join (d.requirements.map fun r => " " ++ r.render)

end Dependency

structure Conflict where
  condition : Condition
  message : Option String

namespace Conflict

def applies (c : Conflict) (config : Configuration) : Bool := c.condition.holds config

def render (c : Conflict) : String :=
  match c.message with
  | some msg => s!"{c.condition}: {msg}"
  | none => c.condition.render

end Conflict

end PackageRecipes
