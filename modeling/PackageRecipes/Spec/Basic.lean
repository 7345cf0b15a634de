import PackageRecipes.Spec.Source
import PackageRecipes.Spec.Dependency
import PackageRecipes.Update

/-! Package specifications, and the declarations that build them up. -/
namespace PackageRecipes

inductive BuildSystem where
  | makefile | cmake | generic
  deriving DecidableEq

def BuildSystem.name : BuildSystem → String
  | .makefile => "makefile"
  | .cmake => "cmake"
  | .generic => "generic"

structure PackageSpec where
  name : String
  summary : Option String
  homepage : Option String
  buildSystem : BuildSystem
  parallel : Bool
  versions : List VersionDecl
  variants : List VariantDecl
  dependencies : List Dependency
  conflicts : List Conflict

namespace PackageSpec

/-- A package with nothing declared. -/
def bare (name : String) : Except Error PackageSpec :=
  match nameFault? name with
  | some fault => .error (.invalidName name fault)
  | none => .ok ⟨name, none, none, .generic, true, [], [], [], []⟩

def variant? (s : PackageSpec) (name : String) : Option VariantDecl :=
  s.variants.find? (·.name == name)

/-- The declaration of a version, in whatever spelling. -/
def version? (s : PackageSpec) (v : Version) : Option VersionDecl :=
  s.versions.find? (·.version.same v)

/-- The values that a variant of a kind may take; only switches go without a list. -/
def allowedValues (kind : VariantKind) (values : Option (List String)) :
    Except DefaultFault (List String) :=
  match kind, values with
  | .boolean, none => .ok []
  | .boolean, some _ => .error .switchWithValues
  | _, none | _, some [] => .error (.noValues kind)
  | _, some vs => .ok vs

/-- A variant whose default it allows itself. -/
def checkedVariant (name : String) (kind : VariantKind) (default : VariantValue)
    (values : Option (List String)) : Except DefaultFault VariantDecl :=
  match allowedValues kind values with
  | .error e => .error e
  | .ok vs =>
    let decl : VariantDecl := ⟨name, kind, default, vs, none⟩
    match decl.valueFault? default with
    | some fault => .error (.value fault)
    | none => .ok decl

/-- Checks atoms on variants one by one. -/
def checkAtoms (s : PackageSpec) : List (String × VariantMatch) → Except Condition.Error Unit
  | [] => .ok ()
  | (name, wanted) :: rest =>
    match s.variant? name with
    | none => .error (.unknownVariant name)
    | some decl =>
      match decl.checkMatch wanted with
      | .error e => .error e
      | .ok () => s.checkAtoms rest

/-- Every own variant that the condition names is declared and can take what is asked of it. -/
def checkCondition (s : PackageSpec) (c : Condition) : Except Condition.Error Unit :=
  s.checkAtoms c.ownVariants

/-- Marks a declared version as preferred. -/
def prefer (s : PackageSpec) (index : Nat) : PackageSpec :=
  { s with versions := s.versions.modify index fun d => { d with preferred := true } }

/-- Gives a declared variant its description. -/
def describe (s : PackageSpec) (index : Nat) (text : Option String) : PackageSpec :=
  { s with variants := s.variants.modify index fun d => { d with description := text } }

/-- Says when a declared dependency is needed. -/
def setTypes (s : PackageSpec) (index : Nat) (types : List DependencyType) : PackageSpec :=
  { s with dependencies := s.dependencies.modify index fun d => { d with types := DependencyType.sorted types } }

end PackageSpec

/-! ## Declarations -/

abbrev SpecStep := Update PackageSpec

namespace SpecStep

def declareVersion (label : String) (locator : SourceLocator) (integrity : Option Checksum) : SpecStep Unit := do
  match Version.parse label with
  | .error e => throw (.invalidVersion e)
  | .ok v =>
    let s ← get
    if (s.version? v).isSome then throw (.duplicateVersion s.name (.version s.versions.length) label)
    modify fun s => { s with versions := s.versions ++ [⟨v, locator, integrity, false⟩] }

def declareVariant (name : String) (kind : VariantKind) (default : VariantValue) (values : Option (List String)) :
    SpecStep Unit := do
  if let some fault := nameFault? name then throw (.invalidName name fault)
  let s ← get
  if (s.variant? name).isSome then throw (.duplicateVariant s.name (.variant name) name)
  match PackageSpec.checkedVariant name kind default values with
  | .error fault => throw (.invalidDefault s.name (.variantDefault name) name fault)
  | .ok decl => modify fun s => { s with variants := s.variants ++ [decl] }

def declareDependency (target : String) (constraint : List VersionRange) (requirements : List Condition)
    (condition : Condition) : SpecStep Unit := do
  if let some fault := nameFault? target then throw (.invalidName target fault)
  let s ← get
  if let .error e := s.checkCondition condition then
    throw (.malformedCondition s.name (.dependsWhen s.dependencies.length) e)
  let dep : Dependency := .ofRequirement ⟨target, constraint, requirements⟩ condition
  modify fun s => { s with dependencies := s.dependencies ++ [dep] }

def declareConflict (condition : Condition) (message : Option String) : SpecStep Unit := do
  let s ← get
  if let .error e := s.checkCondition condition then
    throw (.malformedCondition s.name (.conflict s.conflicts.length) e)
  modify fun s => { s with conflicts := s.conflicts ++ [⟨condition, message⟩] }

end SpecStep

namespace PackageSpec

def declareVersion (s : PackageSpec) (label : String) (locator : SourceLocator)
    (integrity : Option Checksum) : Except Error PackageSpec :=
  (SpecStep.declareVersion label locator integrity).result s

def declareVariant (s : PackageSpec) (name : String) (kind : VariantKind) (default : VariantValue)
    (values : Option (List String)) : Except Error PackageSpec :=
  (SpecStep.declareVariant name kind default values).result s

def declareDependency (s : PackageSpec) (target : String) (constraint : List VersionRange)
    (requirements : List Condition) (condition : Condition) : Except Error PackageSpec :=
  (SpecStep.declareDependency target constraint requirements condition).result s

def declareConflict (s : PackageSpec) (condition : Condition) (message : Option String) :
    Except Error PackageSpec :=
  (SpecStep.declareConflict condition message).result s

/-! ## Questions -/

def activeDependencies (s : PackageSpec) (c : Configuration) : List Dependency :=
  s.dependencies.filter (·.isActive c)

def activeConflicts (s : PackageSpec) (c : Configuration) : List Conflict :=
  s.conflicts.filter (·.applies c)

/-- No conflict applies. -/
def isValid (s : PackageSpec) (c : Configuration) : Bool := !s.conflicts.any (·.applies c)

/-- The fault of the first assignment that does not suit the declared variants. -/
def assignmentFault? (s : PackageSpec) : List (String × VariantValue) → Option ConfigurationFault
  | [] => none
  | (name, value) :: rest =>
    match s.variant? name with
    | none => some (.unknownVariant name)
    | some decl =>
      match decl.valueFault? value with
      | some fault => some (.badValue name fault)
      | none => s.assignmentFault? rest

def configurationFault? (s : PackageSpec) (c : Configuration) : Option ConfigurationFault :=
  if c.name ≠ s.name then some (.otherPackage c.name)
  else if (s.version? c.version).isNone then some (.undeclaredVersion c.version.label)
  else
    match s.assignmentFault? c.variants.entries with
    | some fault => some fault
    | none => (s.variants.find? fun d => !c.variants.contains d.name).map (.unassigned ·.name)

/-- The configuration is for this package, at a declared version, with an allowed value for each
variant and no other. -/
def checkConfiguration (s : PackageSpec) (c : Configuration) : Except Error Unit :=
  match s.configurationFault? c with
  | some fault => .error (.invalidConfiguration s.name fault)
  | none => .ok ()

/-- The last of the highest versions. -/
def highest : List VersionDecl → Option VersionDecl
  | [] => none
  | d :: rest =>
    match highest rest with
    | none => some d
    | some best => if d.version.compare best.version = .gt then some d else some best

/-- The first version marked as preferred, else the highest release, else the first version. -/
def preferredVersion? (s : PackageSpec) : Option VersionDecl :=
  s.versions.find? (·.preferred)
    <|> highest (s.versions.filter (·.version.isNumeric))
    <|> s.versions.head?

/-- The preferred version with every variant at its default. -/
def defaultConfiguration? (s : PackageSpec) : Option Configuration :=
  s.preferredVersion?.map fun d =>
    { Configuration.bare s.name d.version with
      variants := .ofList (s.variants.map fun v => (v.name, v.default)) }

end PackageSpec

end PackageRecipes
