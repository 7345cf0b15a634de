import PackageRecipes.Configuration
import PackageRecipes.Version.Range

/-! Conditions on a configuration, as `when` clauses and requirements state them. -/
namespace PackageRecipes

/-- What a condition asks of one variant. -/
inductive VariantMatch where
  | enabled
  | disabled
  | values (wanted : List String)
  deriving DecidableEq

inductive Condition where
  | always
  | variant (name : String) (wanted : VariantMatch)
  | version (range : VersionRange)
  /-- No range means any version of the compiler, a known one or not. -/
  | compiler (name : String) (versions : List VersionRange)
  | dependency (name : String) (condition : Condition)
  | all (parts : List Condition)
  | any (alternatives : List Condition)

/-- A set has to hold all wanted values, and any other value one of them. -/
def VariantMatch.accepts : VariantMatch → VariantValue → Bool
  | .enabled, .bool b => b
  | .disabled, .bool b => !b
  | .enabled, _ | .disabled, _ => false
  | .values wanted, .multi vs => wanted.all vs.contains
  | .values wanted, value => wanted.any value.includes

def VariantMatch.render (name : String) : VariantMatch → String
  | .enabled => "+" ++ name
  | .disabled => "~" ++ name
  | .values vs => name ++ "=" ++ ",".intercalate vs

namespace Condition

instance : Inhabited Condition := ⟨.always⟩

def isAlways : Condition → Bool
  | .always => true
  | _ => false

def isVersion : Condition → Bool
  | .version _ => true
  | _ => false

/-- The conjunction, without parts that always hold and without a wrapper around a lone part. -/
def conj (parts : List Condition) : Condition :=
  match parts.filter (!·.isAlways) with
  | [] => .always
  | [c] => c
  | cs => .all cs

/-- The disjunction, without a wrapper around a lone alternative. -/
def disj : List Condition → Condition
  | [c] => c
  | cs => .any cs

/-- Some version of the compiler lies in some range, or no range is asked for. -/
def compilerHolds (name : String) (versions : List VersionRange) (config : Configuration) : Bool :=
  config.compiler.any fun k =>
    k.name == name && (versions.isEmpty || k.version.any fun v => versions.any (·.contains v))

mutual

def holds (config : Configuration) : Condition → Bool
  | .always => true
  | .variant name wanted => (config.variant? name).any wanted.accepts
  | .version range => range.contains config.version
  | .compiler name versions => compilerHolds name versions config
  | .dependency name condition =>
    match config.dependency? name with
    | some d => holds d condition
    | none => false
  | .all parts => allHold config parts
  | .any alternatives => anyHolds config alternatives

def allHold (config : Configuration) : List Condition → Bool
  | [] => true
  | c :: cs => holds config c && allHold config cs

def anyHolds (config : Configuration) : List Condition → Bool
  | [] => false
  | c :: cs => holds config c || anyHolds config cs

end

theorem allHold_eq (config : Configuration) (cs : List Condition) :
    allHold config cs = cs.all (holds config) := by
  induction cs with
  | nil => rfl
  | cons c cs ih => simp [allHold, ih]

theorem anyHolds_eq (config : Configuration) (cs : List Condition) :
    anyHolds config cs = cs.any (holds config) := by
  induction cs with
  | nil => rfl
  | cons c cs ih => simp [anyHolds, ih]

mutual

/-- The atoms on the package's own variants, outside conditions on dependencies. -/
def ownVariants : Condition → List (String × VariantMatch)
  | .variant name wanted => [(name, wanted)]
  | .all parts => ownVariantsOf parts
  | .any alternatives => ownVariantsOf alternatives
  | .always | .version _ | .compiler _ _ | .dependency _ _ => []

def ownVariantsOf : List Condition → List (String × VariantMatch)
  | [] => []
  | c :: cs => ownVariants c ++ ownVariantsOf cs

end

def renderVersions (ranges : List VersionRange) : String :=
  ",".intercalate (ranges.map VersionRange.render)

mutual

def render : Condition → String
  | .always => "always"
  | .variant name wanted => wanted.render name
  | .version range => "@" ++ range.render
  | .compiler name versions =>
    if versions.isEmpty then "%" ++ name else "%" ++ name ++ "@" ++ renderVersions versions
  | .dependency name .always => "^" ++ name
  | .dependency name (.version range) => "^" ++ name ++ "@" ++ range.render
  | .dependency name condition => "^" ++ name ++ " " ++ render condition
  | .all parts => " ".intercalate (renderParts parts)
  | .any alternatives => " | ".intercalate (renderAll alternatives)

/-- Alternatives within a conjunction stand in parentheses. -/
def renderParts : List Condition → List String
  | [] => []
  | .any cs :: rest => ("(" ++ render (.any cs) ++ ")") :: renderParts rest
  | c :: rest => render c :: renderParts rest

def renderAll : List Condition → List String
  | [] => []
  | c :: rest => render c :: renderAll rest

end

instance : ToString Condition := ⟨render⟩

/-- Why a text is no condition, or why a condition does not fit a package's variants. -/
inductive Error where
  | empty
  | missingName (sigil : Char)
  | unexpected (token : String) (offset : Nat)
  /-- Without a cause, no version was given at all. -/
  | badVersion (input : String) (cause : Option Version.Error)
  | unknownVariant (name : String)
  | disallowedValue (variant value : String)
  | notBoolean (name : String)
  deriving DecidableEq

def Error.message : Error → String
  | .empty => "empty condition"
  | .missingName sigil => s!"expected a name after '{sigil}'"
  | .unexpected token offset => s!"unexpected '{token}' at offset {offset}"
  | .badVersion input (some cause) => s!"bad version '{input}': {cause.message}"
  | .badVersion input none => s!"bad version '{input}': no version given"
  | .unknownVariant name => s!"unknown variant '{name}'"
  | .disallowedValue name value => s!"variant '{name}' does not allow value '{value}'"
  | .notBoolean name => s!"variant '{name}' is not boolean"

end Condition

end PackageRecipes
