import PackageRecipes.NameMap
import PackageRecipes.NameSet
import PackageRecipes.Version.Basic

/-! A package with every choice made: version, variants, compiler and dependencies. -/
namespace PackageRecipes

open Text

inductive VariantValue where
  | bool (on : Bool)
  | single (value : String)
  | multi (values : NameSet)
  deriving DecidableEq

namespace VariantValue

/-- The pieces between commas, without the white space around them and without empty ones. -/
def listed (cs : List Char) : List String :=
  (((pieces (· = ',') cs).map trim).filter (!·.isEmpty)).map String.ofList

/-- A switch word is a boolean, a text with a comma a set, and any other text a single value. -/
def parse (s : String) : VariantValue :=
  let text := trim s.toList
  match String.ofList text with
  | "on" | "true" | "yes" => .bool true
  | "off" | "false" | "no" => .bool false
  | word => if text.contains ',' then .multi (.ofList (listed text)) else .single word

def asBool? : VariantValue → Option Bool
  | .bool b => some b
  | _ => none

/-- A boolean includes the names of its state, a single value itself, and a set its members. -/
def includes : VariantValue → String → Bool
  | .bool b, "on" | .bool b, "true" => b
  | .bool b, "off" | .bool b, "false" => !b
  | .bool _, _ => false
  | .single v, w => v == w
  | .multi vs, w => vs.contains w

def render : VariantValue → String
  | .bool true => "on"
  | .bool false => "off"
  | .single v => v
  | .multi vs => ",".intercalate vs.toList

instance : ToString VariantValue := ⟨render⟩

end VariantValue

structure Compiler where
  name : String
  version : Option Version
  deriving DecidableEq

namespace Compiler

inductive Error where
  | version (e : Version.Error)
  | emptyName (input : String)

/-- Reads `name` or `name@version`. -/
def parse (s : String) : Except Error Compiler :=
  let text := trim s.toList
  let named (name : List Char) (version : Option Version) : Except Error Compiler :=
    if name.isEmpty then .error (.emptyName (String.ofList text))
    else .ok ⟨String.ofList name, version⟩
  match cutAt '@' text with
  | none => named text none
  | some (name, label) =>
    match Version.parse (String.ofList label) with
    | .error e => .error (.version e)
    | .ok v => named name (some v)

def render (c : Compiler) : String :=
  match c.version with
  | some v => c.name ++ "@" ++ v.label
  | none => c.name

instance : ToString Compiler := ⟨render⟩

end Compiler

structure Configuration where
  name : String
  version : Version
  variants : NameMap VariantValue
  compiler : Option Compiler
  dependencies : NameMap Configuration

namespace Configuration

/-- The package at a version, with nothing else chosen. -/
def bare (name : String) (version : Version) : Configuration := ⟨name, version, .empty, none, .empty⟩

def withVariant (c : Configuration) (name : String) (value : VariantValue) : Configuration :=
  { c with variants := c.variants.insert name value }

def withCompiler (c : Configuration) (compiler : Compiler) : Configuration :=
  { c with compiler := some compiler }

/-- Attaches a dependency under its own name. -/
def withDependency (c d : Configuration) : Configuration :=
  { c with dependencies := c.dependencies.insert d.name d }

def variant? (c : Configuration) (name : String) : Option VariantValue := c.variants.get? name

def dependency? (c : Configuration) (name : String) : Option Configuration :=
  c.dependencies.get? name

def isEnabled (c : Configuration) (name : String) : Bool :=
  (c.variant? name).bind VariantValue.asBool? == some true

mutual

/-- Configurations in the tree, each occurrence counted. -/
def size : Configuration → Nat
  | ⟨_, _, _, _, ⟨children⟩⟩ => sizeOfChildren children + 1

def sizeOfChildren : List (String × Configuration) → Nat
  | [] => 0
  | (_, d) :: rest => d.size + sizeOfChildren rest

end

def totalSize : List Configuration → Nat
  | [] => 0
  | c :: rest => c.size + totalSize rest

theorem totalSize_append (cs ds : List Configuration) :
    totalSize (cs ++ ds) = totalSize cs + totalSize ds := by
  induction cs with
  | nil => simp [totalSize]
  | cons c cs ih => simp [totalSize, ih, Nat.add_assoc]

theorem sizeOfChildren_eq (xs : List (String × Configuration)) :
    sizeOfChildren xs = totalSize (xs.map Prod.snd) := by
  induction xs with
  | nil => rfl
  | cons x rest ih => obtain ⟨k, d⟩ := x; simp [sizeOfChildren, totalSize, ih]

theorem size_eq (c : Configuration) : c.size = totalSize c.dependencies.values + 1 := by
  obtain ⟨_, _, _, _, ⟨children⟩⟩ := c
  simp [size, sizeOfChildren_eq, NameMap.values]

/-- The configurations of a row of trees in depth-first order, each name once: at its first
occurrence, and then with what lies below that occurrence. -/
def walkFrom (seen : List String) : List Configuration → List Configuration
  | [] => []
  | c :: rest =>
    if c.name ∈ seen then walkFrom seen rest
    else c :: walkFrom (c.name :: seen) (c.dependencies.values ++ rest)
termination_by cs => totalSize cs
decreasing_by
  · simp [totalSize, size_eq c]
  · simp only [totalSize, totalSize_append, size_eq c]; omega

def walk (c : Configuration) : List Configuration := walkFrom [] [c]

def renderVariant (name : String) : VariantValue → String
  | .bool true => s!" +{name}"
  | .bool false => s!" ~{name}"
  | value => s!" {name}={value}"

/-- The package's own choices on one line; its dependencies are left out. -/
def render (c : Configuration) : String :=
  c.name ++ "@" ++ c.version.label
    ++ String.join (c.variants.entries.map fun (n, v) => renderVariant n v)
    ++ c.compiler.elim "" fun k => s!" %{k}"

instance : ToString Configuration := ⟨render⟩

end Configuration

end PackageRecipes
