import PackageRecipes.Text

/-! Names of packages and variants. -/
namespace PackageRecipes

open Text

inductive NameFault where
  | empty
  | badStart
  | unexpectedCharacter (c : Char)
  | emptyCompiler
  deriving DecidableEq

def NameFault.message : NameFault → String
  | .empty => "name is empty"
  | .badStart => "must start with a letter or digit"
  | .unexpectedCharacter c => s!"unexpected character '{c}'"
  | .emptyCompiler => "compiler name is empty"

def isDeclaredNameChar (c : Char) : Bool := isAlphanumeric c || c = '_' || c = '-' || c = '.'

/-- Why a name cannot be declared: it starts with a letter or digit of ASCII and goes on with those,
underscores, hyphens and dots. -/
def nameFault? (name : String) : Option NameFault :=
  match name.toList with
  | [] => some .empty
  | c :: rest =>
    if !isAlphanumeric c then some .badStart
    else (rest.find? (!isDeclaredNameChar ·)).map .unexpectedCharacter

end PackageRecipes
