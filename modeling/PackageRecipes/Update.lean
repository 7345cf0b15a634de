import PackageRecipes.Error

/-! Changes to a state that may be refused. -/
namespace PackageRecipes

/-- A change to a state; what it has done before it is refused stays done. -/
abbrev Update (σ : Type) := ExceptT Error (StateM σ)

namespace Update

variable {σ α : Type}

def runOn (u : Update σ α) (s : σ) : Except Error α × σ := StateT.run (ExceptT.run u) s

/-- The state after a change that is not refused. -/
def result (u : Update σ Unit) (s : σ) : Except Error σ :=
  match u.runOn s with
  | (.ok (), s') => .ok s'
  | (.error e, _) => .error e

end Update

end PackageRecipes
