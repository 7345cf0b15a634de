import PackageRecipes.Repository
import PackageRecipes.Build.Hooks

/-! The hooks of all packages. -/
namespace PackageRecipes

/-- Hooks by package: those registered by hand, and those of recipes. -/
structure HookRegistry where
  custom : NameMap Hooks
  recipes : NameMap RecipeHooks

namespace HookRegistry

def empty : HookRegistry := ⟨.empty, .empty⟩

def register (r : HookRegistry) (name : String) (hooks : Hooks) : HookRegistry :=
  { r with custom := r.custom.insert name hooks }

def registerRecipe (r : HookRegistry) (hooks : RecipeHooks) : HookRegistry :=
  { r with recipes := r.recipes.insert hooks.package hooks }

/-- Reads the hooks of every recipe of a repository. -/
def ofRepository (repo : Repository) : Except Error HookRegistry :=
  repo.entries.values.foldlM
    (fun r e => (RecipeHooks.ofRecipe e.recipe e.spec).map r.registerRecipe) empty

def contains (r : HookRegistry) (name : String) : Bool :=
  r.custom.contains name || r.recipes.contains name

/-- Hooks registered by hand count before those of a recipe; a package without either does
nothing. -/
def hooks (r : HookRegistry) (name : String) : Hooks :=
  match r.custom.get? name with
  | some hooks => hooks
  | none => ((r.recipes.get? name).map RecipeHooks.toHooks).getD .none

end HookRegistry

end PackageRecipes
