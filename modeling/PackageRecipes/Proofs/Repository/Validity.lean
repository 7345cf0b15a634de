import PackageRecipes.Build.Registry
import PackageRecipes.Proofs.Build.Compilation
import PackageRecipes.Proofs.Repository.Basic

/-!
# Entries that were checked on the way in

A recipe is checked as a whole before it is added. So no entry of a repository can fail later, when hooks are
made for all of them, and a recipe that is refused leaves nothing behind.
-/

namespace PackageRecipes

variable {r r' : Repository} {n : String} {e : RepositoryEntry}

/-- The entry stands under the name of its package, and its recipe declares its specification and has a build
section that can be read. -/
structure RepositoryEntry.Valid (e : RepositoryEntry) (name : String) : Prop where
  recipe_name : e.recipe.package.name = name
  spec_name : e.spec.name = name
  spec : e.recipe.toSpec = .ok e.spec
  build : e.recipe.build.Readable e.spec

theorem RepositoryEntry.Valid.exists_hooks (h : e.Valid n) :
    ∃ hooks, RecipeHooks.ofRecipe e.recipe e.spec = .ok hooks ∧ hooks.package = n := by
  obtain ⟨hooks, hhooks⟩ := RecipeHooks.exists_ofRecipe_ok.2 h.build
  exact ⟨hooks, hhooks, (RecipeHooks.ofRecipe_package hhooks).trans h.spec_name⟩

/-! ## Additions -/

theorem Recipe.exists_validate_ok {recipe : Recipe} :
    (∃ ws, recipe.validate = .ok ws) ↔ ∃ s, recipe.toSpec = .ok s ∧ recipe.build.Readable s := by
  simp only [← RecipeHooks.exists_ofRecipe_ok, validate]
  cases recipe.toSpec with
  | error e => simp
  | ok s => cases hhooks : RecipeHooks.ofRecipe recipe s <;> simp [hhooks]

namespace Repository

/-- A recipe is added exactly when its package is new, it declares a specification, and its build section can be
read. -/
theorem add_ok_iff {recipe : Recipe} {path : Option Path} :
    r.add recipe path = .ok r' ↔ recipe.package.name ∉ r.names ∧
      ∃ spec, recipe.toSpec = .ok spec ∧ recipe.build.Readable spec ∧
        r' = ⟨r.entries.insert recipe.package.name ⟨recipe, spec, path⟩⟩ := by
  rw [names, ← NameMap.get?_eq_none_iff, add, Update.result_eq_ok, runOn_add, find?]
  cases r.entries.get? recipe.package.name with
  | some existing => simp
  | none =>
      cases hvalidate : recipe.validate with
      | error fault =>
          have hnone : ¬ ∃ s, recipe.toSpec = .ok s ∧ recipe.build.Readable s := by
            rw [← Recipe.exists_validate_ok, hvalidate]
            simp
          constructor
          · intro h
            cases h
          · rintro ⟨-, s, hs, hbuild, -⟩
            exact absurd ⟨s, hs, hbuild⟩ hnone
      | ok ws =>
          obtain ⟨spec, hspec, hbuild⟩ := Recipe.exists_validate_ok.1 ⟨ws, hvalidate⟩
          simp [hspec, hbuild, eq_comm]

theorem Reachable.valid (h : Reachable r) (he : (n, e) ∈ r.entries.entries) : e.Valid n := by
  induction h with
  | empty => cases he
  | add _ hadd ih =>
      obtain ⟨-, spec, hspec, hbuild, rfl⟩ := add_ok_iff.1 hadd
      rcases NameMap.mem_insert_entries he with hnew | hold
      · cases hnew
        exact ⟨rfl, Recipe.toSpec_name hspec, hspec, hbuild⟩
      · exact ih hold

end Repository

/-! ## Hooks for all entries -/

namespace HookRegistry

variable {registry : HookRegistry} {done rest : List (String × RepositoryEntry)} {hooks : RecipeHooks}

/-- The registry has the hooks of each entry's recipe under the entry's name, and no others. -/
structure Covers (registry : HookRegistry) (entries : List (String × RepositoryEntry)) : Prop where
  custom : registry.custom = .empty
  recipes : ∀ n hooks, registry.recipes.get? n = some hooks ↔
    ∃ e, (n, e) ∈ entries ∧ RecipeHooks.ofRecipe e.recipe e.spec = .ok hooks

theorem Covers.registerRecipe (h : registry.Covers done) (hnew : n ∉ done.map Prod.fst)
    (hhooks : RecipeHooks.ofRecipe e.recipe e.spec = .ok hooks) (hpackage : hooks.package = n) :
    (registry.registerRecipe hooks).Covers (done ++ [(n, e)]) := by
  refine ⟨h.custom, fun m hooks' => ?_⟩
  rw [HookRegistry.registerRecipe, NameMap.get?_insert, hpackage]
  by_cases hm : m = n
  · subst hm
    -- Only the new entry has this name.
    have honly : ∀ e', (m, e') ∈ done ++ [(m, e)] ↔ e' = e := by
      intro e'
      have hold : (m, e') ∉ done := fun hmem => hnew (List.mem_map_of_mem (f := Prod.fst) hmem)
      simp [hold]
    simp [honly, hhooks]
  · simp [hm, h.recipes]

theorem Covers.exists_registered (h : registry.Covers done) (hvalid : ∀ n e, (n, e) ∈ rest → e.Valid n)
    (hnodup : ((done ++ rest).map Prod.fst).Nodup) :
    ∃ registry', (rest.map Prod.snd).foldlM
        (fun r e => (RecipeHooks.ofRecipe e.recipe e.spec).map r.registerRecipe) registry = .ok registry' ∧
      registry'.Covers (done ++ rest) := by
  induction rest generalizing registry done with
  | nil => exact ⟨registry, rfl, by simpa using h⟩
  | cons entry rest ih =>
      obtain ⟨n, e⟩ := entry
      obtain ⟨hooks, hhooks, hpackage⟩ := (hvalid n e List.mem_cons_self).exists_hooks
      have hnew : n ∉ done.map Prod.fst := by
        intro hmem
        rw [List.map_append, List.nodup_append] at hnodup
        exact hnodup.2.2 n hmem n List.mem_cons_self rfl
      rw [List.append_cons] at hnodup ⊢
      obtain ⟨registry', hrest, hcovers⟩ := ih (h.registerRecipe hnew hhooks hpackage)
        (fun m e' hmem => hvalid m e' (List.mem_cons_of_mem _ hmem)) hnodup
      refine ⟨registry', ?_, hcovers⟩
      rw [List.map_cons, List.foldlM_cons, hhooks]
      exact hrest

theorem Covers.contains_iff (h : registry.Covers r.entries.entries)
    (hvalid : ∀ n e, (n, e) ∈ r.entries.entries → e.Valid n) : registry.contains n ↔ n ∈ r.names := by
  have hcustom : registry.custom.contains n = false := by rw [h.custom]; rfl
  rw [contains, hcustom, Bool.false_or, NameMap.contains, Option.isSome_iff_exists]
  simp only [h.recipes]
  constructor
  · rintro ⟨_, e, he, -⟩
    exact List.mem_map_of_mem (f := Prod.fst) he
  · intro hn
    obtain ⟨⟨_, e⟩, he, rfl⟩ := List.mem_map.1 hn
    obtain ⟨hooks, hhooks, -⟩ := (hvalid _ e he).exists_hooks
    exact ⟨hooks, e, he, hhooks⟩

theorem exists_ofRepository (h : r.Reachable) :
    ∃ registry, ofRepository r = .ok registry ∧ registry.Covers r.entries.entries := by
  have start : empty.Covers [] := ⟨rfl, by simp [empty]⟩
  exact start.exists_registered (fun _ _ => h.valid) h.keyed.ascending.nodup

end HookRegistry

/-! ## Sequences of additions -/

structure Addition where
  recipe : Recipe
  path : Option Path

namespace Repository

def ofAdditions (as : List Addition) : Repository := as.foldl (fun r a => r.accept a.recipe a.path) empty

theorem ofAdditions_reachable (as : List Addition) : Reachable (ofAdditions as) :=
  List.foldlRecOn as _ .empty fun _ h a _ => h.accept a.recipe a.path

/-- After any additions every entry is valid and the hooks of all packages can be made, and an addition that is
refused changes nothing. -/
theorem additions_valid (as : List Addition) :
    (∀ a fault, (ofAdditions as).add a.recipe a.path = .error fault →
      (RepositoryStep.add a.recipe a.path).runOn (ofAdditions as) = (.error fault, ofAdditions as) ∧
        ofAdditions (as ++ [a]) = ofAdditions as) ∧
    (∀ n e, (n, e) ∈ (ofAdditions as).entries.entries → e.Valid n) ∧
    ∃ registry, HookRegistry.ofRepository (ofAdditions as) = .ok registry ∧
      registry.Covers (ofAdditions as).entries.entries ∧
      ∀ n, registry.contains n ↔ n ∈ (ofAdditions as).names := by
  have hreach := ofAdditions_reachable as
  obtain ⟨registry, hregistry, hcovers⟩ := HookRegistry.exists_ofRepository hreach
  refine ⟨?_, fun n e => hreach.valid, registry, hregistry, hcovers, ?_⟩
  · intro a fault refused
    obtain ⟨r', hrun⟩ := Update.result_eq_error.1 refused
    obtain rfl := add_refused hrun
    have kept : (ofAdditions as).accept a.recipe a.path = ofAdditions as := by rw [accept, hrun]
    refine ⟨hrun, ?_⟩
    rw [ofAdditions, List.foldl_append]
    exact kept
  · exact fun n => hcovers.contains_iff fun _ _ => hreach.valid

/-- A recipe whose only command is there for either value of a variant. -/
def ninja : Recipe :=
  { plainRecipe "ninja" [] with
    variants := [⟨"static", .bool true, none, false, none⟩]
    build := { BuildSection.empty with
      commands := [⟨.build, ["./configure.py"], none, some (.many ["+static", "~static"])⟩] } }

/-- A recipe with a command that has no program. -/
def samurai : Recipe :=
  { plainRecipe "samurai" [] with
    build := { BuildSection.empty with commands := [⟨.build, [], none, none⟩] } }

theorem additions_valid_ninja :
    (ofAdditions [⟨ninja, none⟩]).names = ["ninja"] ∧
      ofAdditions ([⟨ninja, none⟩] ++ [⟨samurai, none⟩]) = ofAdditions [⟨ninja, none⟩] ∧
      (∃ e, (ofAdditions [⟨ninja, none⟩]).find? "ninja" = some e ∧ e.Valid "ninja") ∧
      ∃ registry, HookRegistry.ofRepository (ofAdditions [⟨ninja, none⟩]) = .ok registry ∧
        ∀ n, registry.contains n ↔ n = "ninja" := by
  obtain ⟨hrefused, hvalid, registry, hregistry, -, hcontains⟩ := additions_valid [⟨ninja, none⟩]
  have hnames : (ofAdditions [⟨ninja, none⟩]).names = ["ninja"] := by decide +kernel
  have hfault : ∃ fault, (ofAdditions [⟨ninja, none⟩]).add samurai none = .error fault := by
    cases hadd : (ofAdditions [⟨ninja, none⟩]).add samurai none with
    | error fault => exact ⟨fault, rfl⟩
    | ok r =>
        obtain ⟨-, _, -, hbuild, -⟩ := add_ok_iff.1 hadd
        exact absurd rfl (hbuild.commands ⟨.build, [], none, none⟩ List.mem_cons_self)
  obtain ⟨fault, hfault⟩ := hfault
  refine ⟨hnames, (hrefused ⟨samurai, none⟩ fault hfault).2, ?_, registry, hregistry, ?_⟩
  · have hmem : "ninja" ∈ (ofAdditions [⟨ninja, none⟩]).names := by rw [hnames]; exact List.mem_cons_self
    obtain ⟨⟨_, e⟩, he, rfl⟩ := List.mem_map.1 hmem
    have hascending := (ofAdditions_reachable [⟨ninja, none⟩]).keyed.ascending
    exact ⟨e, (NameMap.get?_eq_some_iff hascending).2 he, hvalid _ e he⟩
  · intro n
    rw [hcontains, hnames, List.mem_singleton]

end Repository

end PackageRecipes
