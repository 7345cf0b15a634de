import PackageRecipes.NameMap
import PackageRecipes.Recipe.Basic

/-! Environment variables that a build sets, on top of those that its process inherits. -/
namespace PackageRecipes

/-- The variables that a process has from the start, as it can read them. A variable whose value is not Unicode cannot
be read, and so is missing here. -/
abbrev ProcessEnv := NameMap String

/-- The variables that a build has set. -/
structure Environment where
  vars : NameMap String

namespace Environment

def empty : Environment := ⟨.empty⟩

def get? (e : Environment) (name : String) : Option String := e.vars.get? name

def set (e : Environment) (name value : String) : Environment := ⟨e.vars.insert name value⟩

/-- The value to extend: the one that the build has set, or else the inherited one. -/
def current? (e : Environment) (inherited : ProcessEnv) (name : String) : Option String :=
  e.get? name <|> inherited.get? name

/-- Two parts with a colon between them, or only the first if the other is missing or empty. -/
def joined (value : String) (other : Option String) (join : String → String) : String :=
  match other with
  | some old => if old = "" then value else join old
  | none => value

def prepend (e : Environment) (inherited : ProcessEnv) (name value : String) : Environment :=
  e.set name (joined value (e.current? inherited name) fun old => value ++ ":" ++ old)

def append (e : Environment) (inherited : ProcessEnv) (name value : String) : Environment :=
  e.set name (joined value (e.current? inherited name) fun old => old ++ ":" ++ value)

def apply (e : Environment) (inherited : ProcessEnv) (action : EnvAction) (name value : String) :
    Environment :=
  match action with
  | .set => e.set name value
  | .prepend => e.prepend inherited name value
  | .append => e.append inherited name value

/-- One line for each variable. -/
def render (e : Environment) : String :=
  String.join (e.vars.entries.map fun (name, value) => s!"{name}={value}\n")

end Environment

end PackageRecipes
