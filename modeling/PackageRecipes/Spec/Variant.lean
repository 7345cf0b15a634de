import PackageRecipes.Condition.Basic

/-! Declared variants and the values that they allow. -/
namespace PackageRecipes

inductive VariantKind where
  | boolean | enumerated | multi
  deriving DecidableEq

def VariantKind.name : VariantKind → String
  | .boolean => "boolean"
  | .enumerated => "enumerated"
  | .multi => "multi"

/-- Why a value does not suit a variant. -/
inductive ValueFault where
  | notSwitch (got : VariantValue)
  | notAllowed (value : String) (allowed : List String)
  | notSingle (got : VariantValue)
  | notList

def ValueFault.message : ValueFault → String
  | .notSwitch got => s!"expected on or off, got '{got}'"
  | .notAllowed value allowed =>
    let choices := ", ".intercalate allowed
    s!"'{value}' is not one of {choices}"
  | .notSingle got => s!"expected a single value, got '{got}'"
  | .notList => "expected a list of values, got a boolean"

structure VariantDecl where
  name : String
  kind : VariantKind
  default : VariantValue
  allowedValues : List String
  description : Option String

namespace VariantDecl

/-- A value that a condition may ask for. -/
def allows (d : VariantDecl) (value : String) : Bool :=
  match d.kind with
  | .boolean => ["on", "off", "true", "false"].contains value
  | .enumerated | .multi => d.allowedValues.contains value

/-- The fault of the first value that is not allowed. -/
def valuesFault? (d : VariantDecl) (values : List String) : Option ValueFault :=
  (values.find? (!d.allows ·)).map (.notAllowed · d.allowedValues)

/-- Why a value cannot be assigned to the variant. -/
def valueFault? (d : VariantDecl) (value : VariantValue) : Option ValueFault :=
  match d.kind, value with
  | .boolean, .bool _ => none
  | .boolean, other => some (.notSwitch other)
  | .enumerated, .single v => d.valuesFault? [v]
  | .enumerated, other => some (.notSingle other)
  | .multi, .multi vs => d.valuesFault? vs.toList
  | .multi, .single v => d.valuesFault? [v]
  | .multi, .bool _ => some .notList

/-- Checks what a condition asks of the variant. -/
def checkMatch (d : VariantDecl) : VariantMatch → Except Condition.Error Unit
  | .enabled | .disabled => if d.kind = .boolean then .ok () else .error (.notBoolean d.name)
  | .values vs =>
    match vs.find? (!d.allows ·) with
    | some bad => .error (.disallowedValue d.name bad)
    | none => .ok ()

end VariantDecl

end PackageRecipes
