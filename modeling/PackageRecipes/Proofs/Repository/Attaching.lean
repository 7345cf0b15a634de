import PackageRecipes.Proofs.Condition.Attached
import PackageRecipes.Proofs.Repository.Expansion

/-!
# Attaching keeps what is active

A condition never asks that a dependency be missing. So a dependency that is attached under a new name leaves every
condition that holds as it is: what was active stays active, and a conflict that applies cannot be cleared this way.
Expanding a configuration attaches under new names only, and so keeps what it was led by.
-/

namespace PackageRecipes

variable {c more : Configuration} {key : String} {d : Configuration}

namespace Configuration

/-- The configuration with another one attached under a name. -/
def attaching (c : Configuration) (key : String) (d : Configuration) : Configuration :=
  { c with dependencies := c.dependencies.insert key d }

theorem extends_attaching (hnew : key ∉ c.dependencies.keys) (d : Configuration) :
    (c.attaching key d).Extends c where
  version := rfl
  variants := rfl
  compiler := rfl
  attached n e he := by
    have hother : n ≠ key := by
      rintro rfl
      rw [dependency?, NameMap.get?_eq_none_iff.2 hnew] at he
      cases he
    rw [dependency?, attaching, NameMap.get?_insert, if_neg hother]
    exact he

theorem Extends.trans {most : Configuration} (h : most.Extends more) (h' : more.Extends c) : most.Extends c where
  version := h.version.trans h'.version
  variants := h.variants.trans h'.variants
  compiler := h.compiler.trans h'.compiler
  attached n e he := h.attached n e (h'.attached n e he)

end Configuration

/-! ## Specifications -/

namespace PackageSpec

variable {s : PackageSpec}

theorem activeDependencies_sublist (h : more.Extends c) (s : PackageSpec) :
    (s.activeDependencies c).Sublist (s.activeDependencies more) :=
  List.monotone_filter_right _ fun dep => Condition.holds_of_extends h dep.condition

theorem activeConflicts_sublist (h : more.Extends c) (s : PackageSpec) :
    (s.activeConflicts c).Sublist (s.activeConflicts more) :=
  List.monotone_filter_right _ fun conflict => Condition.holds_of_extends h conflict.condition

theorem isValid_iff : s.isValid c ↔ s.activeConflicts c = [] := by simp [isValid, activeConflicts]

theorem isValid_of_extends (h : more.Extends c) (hvalid : s.isValid more) : s.isValid c := by
  have hsublist := activeConflicts_sublist h s
  rw [isValid_iff.1 hvalid] at hsublist
  exact isValid_iff.2 (List.sublist_nil.1 hsublist)

end PackageSpec

/-! ## Expansion -/

namespace Repository

theorem attach_extends (r : Repository) (available targets : List String) (c : Configuration) :
    (r.attach available targets c).Extends c := by
  induction targets generalizing c with
  | nil =>
      rw [attach_nil]
      exact ⟨rfl, rfl, rfl, fun _ _ h => h⟩
  | cons target rest ih =>
      by_cases h : target ∉ available ∨ target ∈ c.dependencies.keys ∨ r.default? target = none
      · rw [attach_cons_skip rest h]
        exact ih c
      · push Not at h
        obtain ⟨child, hchild⟩ := Option.ne_none_iff_exists'.1 h.2.2
        rw [attach_cons_new rest h.1 h.2.1 hchild]
        exact (ih _).trans (Configuration.extends_attaching h.2.1 _)

theorem activeTargets_expand (r : Repository) (available : List String) (c : Configuration) :
    (r.activeTargets c).Sublist (r.activeTargets (r.expand available c)) := by
  have hextends : (r.expand available c).Extends c := by
    rw [expand]
    exact r.attach_extends available _ c
  have hname : (r.expand available c).name = c.name := by
    obtain ⟨m, hm⟩ := expand_eq r available c
    rw [hm]
  rw [activeTargets, activeTargets, hname]
  cases r.spec? c.name with
  | none => exact List.Sublist.refl _
  | some s => exact (PackageSpec.activeDependencies_sublist hextends s).map _

end Repository

namespace Configuration

/-- A dependency under a new name makes no condition fail. So no dependency of a package stops being active, no
conflict stops applying, and none of the targets that an expansion is led by is inactive on what it results in. -/
theorem attaching_keeps (c : Configuration) :
    (∀ key d, key ∉ c.dependencies.keys →
      (∀ condition : Condition, condition.holds c → condition.holds (c.attaching key d)) ∧
      ∀ s : PackageSpec, (s.activeDependencies c).Sublist (s.activeDependencies (c.attaching key d)) ∧
        (s.activeConflicts c).Sublist (s.activeConflicts (c.attaching key d)) ∧
        (s.isValid (c.attaching key d) → s.isValid c)) ∧
    ∀ (r : Repository) available, (r.activeTargets c).Sublist (r.activeTargets (r.expand available c)) := by
  refine ⟨fun key d hnew => ?_, fun r available => r.activeTargets_expand available c⟩
  have hextends := extends_attaching hnew d
  refine ⟨Condition.holds_of_extends hextends, fun s => ⟨?_, ?_, ?_⟩⟩
  · exact PackageSpec.activeDependencies_sublist hextends s
  · exact PackageSpec.activeConflicts_sublist hextends s
  · exact PackageSpec.isValid_of_extends hextends

/-- A package with a mesh that has no variants. -/
def meshed : Configuration := (bare "app" ⟨"1", [.number 1]⟩).attaching "mesh" (bare "mesh" ⟨"2", [.number 2]⟩)

/-- A mesh of version 2 without any switch that is on. -/
def plainMesh : Condition :=
  .all [.dependency "mesh" (.version (.exact ⟨"2", [.number 2]⟩)),
    .any [.dependency "mesh" (.variant "cuda" .enabled), .version (.exact ⟨"1", [.number 1]⟩)]]

/-- A package that needs `blas` beside such a mesh, and cannot be built with it. -/
def meshSpec : PackageSpec :=
  ⟨"app", none, none, .generic, true, [], [], [⟨"blas", [], [], plainMesh, [.link]⟩], [⟨plainMesh, none⟩]⟩

theorem attaching_keeps_blas :
    "blas" ∉ meshed.dependencies.keys ∧ plainMesh.holds meshed ∧
      plainMesh.holds (meshed.attaching "blas" (bare "blas" ⟨"3", [.number 3]⟩)) ∧
      (meshSpec.activeDependencies (meshed.attaching "blas" (bare "blas" ⟨"3", [.number 3]⟩))).length = 1 ∧
      ¬ meshSpec.isValid (meshed.attaching "blas" (bare "blas" ⟨"3", [.number 3]⟩)) := by
  have hnew : "blas" ∉ meshed.dependencies.keys := by decide +kernel
  have hholds : plainMesh.holds meshed := by decide +kernel
  obtain ⟨hconditions, hspecs⟩ := (attaching_keeps meshed).1 "blas" (bare "blas" ⟨"3", [.number 3]⟩) hnew
  obtain ⟨hdependencies, -, hvalid⟩ := hspecs meshSpec
  have hone : (meshSpec.activeDependencies meshed).length = 1 := by decide +kernel
  refine ⟨hnew, hholds, hconditions plainMesh hholds, ?_, fun h => ?_⟩
  · exact Nat.le_antisymm (List.length_filter_le _ _) (hone ▸ hdependencies.length_le)
  · exact absurd (hvalid h) (by decide +kernel)

end Configuration

end PackageRecipes
