import PackageRecipes.Text

/-! Options and operands among the arguments of a command. -/
namespace PackageRecipes.CommandLine

open Text

/-- An option that a command knows. -/
structure OptionDecl where
  name : String
  letter : Option Char
  takesValue : Bool
  isRepeatable : Bool
  /-- The value may be an argument that looks like an option. -/
  takesAnything : Bool
  allows : String → Bool

namespace OptionDecl

def flag (name : String) : OptionDecl := ⟨name, none, false, false, false, fun _ => true⟩

def text (name : String) : OptionDecl := ⟨name, none, true, false, false, fun _ => true⟩

/-- A path is never empty. -/
def path (name : String) : OptionDecl := { text name with allows := (· ≠ "") }

def texts (name : String) : OptionDecl := { text name with isRepeatable := true }

def withLetter (d : OptionDecl) (c : Char) : OptionDecl := { d with letter := some c }

end OptionDecl

abbrev Grammar := List OptionDecl

/-- Options with their values and the remaining arguments, both in their order. -/
structure Arguments where
  options : List (String × String)
  operands : List String
  deriving DecidableEq

namespace Arguments

def has (a : Arguments) (name : String) : Bool := a.options.any (·.1 == name)

def values (a : Arguments) (name : String) : List String :=
  (a.options.filter (·.1 == name)).map Prod.snd

def value? (a : Arguments) (name : String) : Option String := (a.values name).head?

end Arguments

/-- A hyphen with something behind it starts an option; a lone hyphen is an operand. -/
def looksLikeOption (arg : String) : Bool :=
  match arg.toList with
  | '-' :: _ :: _ => true
  | _ => false

/-- What one argument gives: options, and perhaps one more that waits for its value. -/
structure Reading where
  given : List (String × String)
  waiting : Option OptionDecl

/-- An option by its full name, with a value after an equals sign or without one. -/
def readName (g : Grammar) (body : List Char) : Option Reading :=
  let decl? (name : List Char) := g.find? (·.name == String.ofList name)
  match cutAt '=' body with
  | some (name, value) =>
    (decl? name).bind fun d =>
      if d.takesValue then some ⟨[(d.name, String.ofList value)], none⟩ else none
  | none =>
    (decl? body).map fun d => if d.takesValue then ⟨[], some d⟩ else ⟨[(d.name, "")], none⟩

/-- Options by their letters; the first one that takes a value takes what is left. -/
def readLetters (g : Grammar) : List Char → Option Reading
  | [] => some ⟨[], none⟩
  | c :: rest =>
    match g.find? (·.letter == some c) with
    | none => none
    | some d =>
      if d.takesValue then
        match rest with
        | [] => some ⟨[], some d⟩
        | '=' :: value => some ⟨[(d.name, String.ofList value)], none⟩
        | value => some ⟨[(d.name, String.ofList value)], none⟩
      else (readLetters g rest).map fun r => { r with given := (d.name, "") :: r.given }

def readOption (g : Grammar) (arg : String) : Option Reading :=
  match arg.toList with
  | '-' :: '-' :: name => readName g name
  | '-' :: letters => readLetters g letters
  | _ => none

/-- Sorts arguments into options and operands. Two hyphens end the options. With `toOperand` the
first operand ends them, and all that follows it is left as it is. -/
def collect (g : Grammar) (toOperand : Bool) : List String → Option Arguments
  | [] => some ⟨[], []⟩
  | arg :: rest =>
    if arg = "--" then if toOperand then none else some ⟨[], rest⟩
    else if looksLikeOption arg then
      match readOption g arg with
      | none => none
      | some ⟨given, none⟩ =>
        (collect g toOperand rest).map fun a => { a with options := given ++ a.options }
      | some ⟨given, some d⟩ =>
        match rest with
        | [] => none
        | value :: rest =>
          if d.takesAnything || !looksLikeOption value then
            (collect g toOperand rest).map fun a =>
              { a with options := given ++ (d.name, value) :: a.options }
          else none
    else if toOperand then some ⟨[], arg :: rest⟩
    else (collect g toOperand rest).map fun a => { a with operands := arg :: a.operands }

/-- Every value is allowed, and only repeatable options are repeated. -/
def admits (g : Grammar) (a : Arguments) : Bool :=
  g.all fun d =>
    (a.values d.name).all d.allows && (d.isRepeatable || (a.values d.name).length ≤ 1)

def readArguments (g : Grammar) (toOperand : Bool) (args : List String) : Option Arguments :=
  (collect g toOperand args).filter (admits g)

end PackageRecipes.CommandLine
