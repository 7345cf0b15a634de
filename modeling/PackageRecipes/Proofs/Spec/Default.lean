import PackageRecipes.Spec.Basic

/-!
# Default configurations

A package has a default configuration as soon as it declares a version.
-/

namespace PackageRecipes.PackageSpec

variable {s : PackageSpec}

theorem preferredVersion?_isSome : s.preferredVersion?.isSome ↔ s.versions ≠ [] := by
  unfold preferredVersion?
  cases hv : s.versions with
  | nil => simp [highest]
  | cons d rest =>
      cases hp : (d :: rest).find? (·.preferred) <;>
        cases hh : highest ((d :: rest).filter (·.version.isNumeric)) <;> simp

theorem defaultConfiguration?_isSome : s.defaultConfiguration?.isSome ↔ s.versions ≠ [] := by
  rw [defaultConfiguration?, Option.isSome_map, preferredVersion?_isSome]

/-- A default configuration is for its package, for no compiler and with nothing attached. -/
theorem defaultConfiguration?_eq {c : Configuration} (h : s.defaultConfiguration? = some c) :
    c.name = s.name ∧ c.compiler = none ∧ c.dependencies = .empty := by
  obtain ⟨d, _, rfl⟩ := Option.map_eq_some_iff.1 h
  exact ⟨rfl, rfl, rfl⟩

end PackageRecipes.PackageSpec
