import PackageRecipes.Proofs.NameMap
import PackageRecipes.Proofs.Recipe.Declare
import PackageRecipes.Proofs.Spec.Default
import PackageRecipes.Repository

/-!
# Repositories that recipes fill

In a repository that starts empty and takes in recipes, every specification stands under its own name;
so the default configuration of a package is one of that package.
-/

namespace PackageRecipes.Repository

/-- The repositories that additions lead to; one that is refused leads nowhere else. -/
inductive Reachable : Repository → Prop where
  | empty : Reachable .empty
  | add {r r' : Repository} {recipe : Recipe} {path : Option Path} (h : Reachable r)
      (hadd : r.add recipe path = .ok r') : Reachable r'

/-- A package is there and declares a version. -/
def Installable (r : Repository) (name : String) : Prop :=
  ∃ s, r.spec? name = some s ∧ s.versions ≠ []

/-- The names are in order, and each specification stands under its own name. -/
structure Keyed (r : Repository) : Prop where
  ascending : r.entries.Ascending
  named : ∀ n s, r.spec? n = some s → s.name = n

variable {r r' : Repository} {n : String} {c : Configuration}

theorem runOn_add (recipe : Recipe) (path : Option Path) (r : Repository) :
    (RepositoryStep.add recipe path).runOn r =
      match r.find? recipe.package.name with
      | some existing =>
        (.error (.duplicatePackage recipe.package.name (location existing.path) (location path)), r)
      | none =>
        match recipe.validate with
        | .error e => (.error e, r)
        | .ok _ =>
          match recipe.toSpec with
          | .error e => (.error e, r)
          | .ok spec => (.ok (), ⟨r.entries.insert recipe.package.name ⟨recipe, spec, path⟩⟩) := by
  unfold RepositoryStep.add
  rw [Update.runOn_get_bind]
  cases r.find? recipe.package.name with
  | some existing => rfl
  | none =>
      cases recipe.validate with
      | error e => rfl
      | ok ws => cases recipe.toSpec <;> rfl

theorem add_ok {recipe : Recipe} {path : Option Path} (h : r.add recipe path = .ok r') :
    ∃ spec, recipe.toSpec = .ok spec ∧
      r' = ⟨r.entries.insert recipe.package.name ⟨recipe, spec, path⟩⟩ := by
  rw [add, Update.result_eq_ok, runOn_add] at h
  split at h
  · cases h
  · split at h
    · cases h
    · split at h
      · cases h
      · rename_i spec hspec
        cases h
        exact ⟨spec, hspec, rfl⟩

theorem add_refused {recipe : Recipe} {path : Option Path} {fault : Error}
    (h : (RepositoryStep.add recipe path).runOn r = (.error fault, r')) : r' = r := by
  rw [runOn_add] at h
  split at h
  · cases h; rfl
  · split at h
    · cases h; rfl
    · split at h <;> cases h; rfl

theorem Keyed.add (h : r.Keyed) {recipe : Recipe} {path : Option Path}
    (hadd : r.add recipe path = .ok r') : r'.Keyed := by
  obtain ⟨spec, hspec, rfl⟩ := add_ok hadd
  refine ⟨h.ascending.insert _ _, fun n s hs => ?_⟩
  simp only [spec?, find?, NameMap.get?_insert] at hs
  by_cases hn : n = recipe.package.name
  · simp only [hn, ↓reduceIte, Option.map_some, Option.some.injEq] at hs
    rw [← hs, hn, Recipe.toSpec_name hspec]
  · simp only [hn, ↓reduceIte] at hs
    exact h.named n s hs

theorem Reachable.keyed (h : Reachable r) : r.Keyed := by
  induction h with
  | empty => exact ⟨NameMap.empty_ascending, by intro n s hs; cases hs⟩
  | add _ hadd ih => exact ih.add hadd

/-- What an addition leaves, whether or not it is refused. -/
def accept (r : Repository) (recipe : Recipe) (path : Option Path) : Repository :=
  ((RepositoryStep.add recipe path).runOn r).2

def ofRecipes (recipes : List Recipe) : Repository := recipes.foldl (·.accept · none) empty

/-- A recipe of one version, with dependencies that each have their own condition. -/
def plainRecipe (name : String) (depends : List (String × When)) : Recipe where
  package := ⟨name, none, none, .generic, true, some "source", none⟩
  versions := [⟨"1", none, none, none, none, none, none, none, none, none, false, false⟩]
  variants := []
  depends := depends.map fun d => ⟨d.1, d.2, none⟩
  conflicts := []
  build := .empty

theorem Reachable.accept (h : Reachable r) (recipe : Recipe) (path : Option Path) :
    Reachable (r.accept recipe path) := by
  rcases hrun : (RepositoryStep.add recipe path).runOn r with ⟨fault | _, r'⟩
  · rw [Repository.accept, hrun, add_refused hrun]
    exact h
  · rw [Repository.accept, hrun]
    exact h.add (Update.result_eq_ok.2 hrun)

theorem ofRecipes_reachable (recipes : List Recipe) : Reachable (ofRecipes recipes) :=
  List.foldlRecOn recipes _ .empty fun _ h recipe _ => h.accept recipe none

/-- Two packages that need each other. -/
def circle : Repository :=
  ofRecipes [plainRecipe "left" [("right", none)], plainRecipe "right" [("left", none)]]

theorem circle_reachable : Reachable circle := ofRecipes_reachable _

/-! ## Default configurations -/

theorem mem_names_iff : n ∈ r.names ↔ ∃ s, r.spec? n = some s := by
  rw [names, ← NameMap.contains_iff, NameMap.contains, spec?, find?]
  cases r.entries.get? n <;> simp

/-- A default configuration is for the package that is asked for and has nothing attached. -/
theorem Keyed.default?_eq (h : r.Keyed) (hc : r.default? n = some c) :
    c.name = n ∧ c.compiler = none ∧ c.dependencies = .empty := by
  obtain ⟨s, hs, hdefault⟩ := Option.bind_eq_some_iff.1 hc
  obtain ⟨hname, hrest⟩ := PackageSpec.defaultConfiguration?_eq hdefault
  exact ⟨hname.trans (h.named n s hs), hrest⟩

theorem Keyed.default?_bare (h : r.Keyed) {v : Version}
    (hfields : (r.default? n).map (fun c => (c.version, c.variants)) = some (v, .empty)) :
    r.default? n = some (.bare n v) := by
  obtain ⟨c, hc, hfields⟩ := Option.map_eq_some_iff.1 hfields
  obtain ⟨hname, hcompiler, hempty⟩ := h.default?_eq hc
  obtain ⟨name, version, variants, compiler, dependencies⟩ := c
  obtain ⟨rfl, rfl⟩ := Prod.mk.inj hfields
  simp only at hname hcompiler hempty
  rw [hc, hname, hcompiler, hempty]
  rfl

theorem default?_isSome : (r.default? n).isSome ↔ r.Installable n := by
  simp only [default?, Installable]
  cases r.spec? n with
  | none => simp
  | some s => simp [PackageSpec.defaultConfiguration?_isSome]

end PackageRecipes.Repository
