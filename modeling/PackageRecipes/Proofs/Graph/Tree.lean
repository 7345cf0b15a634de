import PackageRecipes.Proofs.Configuration.Occurrence
import PackageRecipes.Proofs.Graph.InstallOrder

/-!
# Graphs of trees

The graph of a tree in which each package has attached what it needs holds exactly the packages that the
root needs, and it has no cycle, even if packages need each other in a circle.
-/

namespace PackageRecipes.Configuration

open PackageRecipes.Graph Relation

variable {needs : String → String → Prop} {root : Configuration} {n d : String}

theorem ofConfiguration_consistent (root : Configuration) : (ofConfiguration root).Consistent :=
  Consistent.empty.addConfiguration root

theorem ofConfiguration_dependsOn :
    (ofConfiguration root).DependsOn n d ↔ ∃ c ∈ root.walk, c.name = n ∧ d ∈ c.dependencies.keys := by
  rw [ofConfiguration, dependsOn_addConfiguration]
  exact or_iff_left (by intro h; cases h)

theorem walked_child {c e : Configuration} (hc : c ∈ root.walk) (he : e ∈ c.dependencies.values) :
    e.name ∈ root.walk.map name :=
  (children_walked [] [root] c hc e he).resolve_left List.not_mem_nil

theorem root_walked (root : Configuration) : root.name ∈ root.walk.map name :=
  (seen_or_walked [] [root] root List.mem_cons_self).resolve_left List.not_mem_nil

/-- In a tree whose packages stand under their names, only what a walk meets comes into the graph. -/
theorem Labelled.contains_iff_walked (h : root.Labelled) :
    (ofConfiguration root).contains n ↔ n ∈ root.walk.map name := by
  have hempty : ¬ Graph.empty.contains n := by intro h; cases h
  rw [ofConfiguration, contains_addConfiguration, or_iff_left hempty]
  constructor
  · rintro ⟨c, hc, rfl | hn⟩
    · exact List.mem_map.2 ⟨c, hc, rfl⟩
    · obtain ⟨path, hoccurs⟩ := occurs_of_walked hc
      obtain ⟨e, he, rfl⟩ := h.exists_child hoccurs hn
      exact walked_child hc he
  · intro hn
    obtain ⟨c, hc, rfl⟩ := List.mem_map.1 hn
    exact ⟨c, hc, Or.inl rfl⟩

namespace Unfolds

theorem walked (h : Unfolds needs [] root) {c : Configuration} (hc : c ∈ root.walk) :
    ∃ path, Unfolds needs path c ∧ ∀ n ∈ path, n ∈ root.walk.map name := by
  have hrow : ∀ c ∈ [root], ∃ path, Unfolds needs path c ∧ ∀ n ∈ path, n ∈ [] := by
    intro c hc
    rw [List.mem_singleton.1 hc]
    exact ⟨[], h, fun _ hn => hn⟩
  obtain ⟨path, hu, hp⟩ := walked_unfolds [] [root] hrow c hc
  exact ⟨path, hu, fun n hn => (hp n hn).resolve_left List.not_mem_nil⟩

theorem contains_iff_walked (h : Unfolds needs [] root) :
    (ofConfiguration root).contains n ↔ n ∈ root.walk.map name := h.labelled.contains_iff_walked

/-- The packages of the graph are those that the root needs, directly or not. -/
theorem contains_iff (h : Unfolds needs [] root) :
    (ofConfiguration root).contains n ↔ ReflTransGen needs root.name n := by
  rw [h.contains_iff_walked]
  constructor
  · intro hn
    obtain ⟨c, hc, rfl⟩ := List.mem_map.1 hn
    refine walked_subset (S := fun n => ReflTransGen needs root.name n) [] [root] ?_ ?_ c hc
    · intro d hd
      rw [List.mem_singleton.1 hd]
    · intro d hd hreach e he
      obtain ⟨path, hu, _⟩ := h.walked hd
      exact hreach.tail (hu.mem_keys_iff.1 (hu.child_key he)).1
  · intro hreach
    induction hreach with
    | refl => exact root_walked root
    | @tail n t _ hneeds ih =>
        obtain ⟨c, hc, rfl⟩ := List.mem_map.1 ih
        obtain ⟨path, hu, hpath⟩ := h.walked hc
        by_cases ht : t ∈ c.name :: path
        · rcases List.mem_cons.1 ht with rfl | ht
          · exact ih
          · exact hpath t ht
        · have hkey : t ∈ c.dependencies.keys := hu.mem_keys_iff.2 ⟨hneeds, ht⟩
          obtain ⟨e, he, rfl⟩ := hu.exists_child hkey
          exact walked_child hc he

theorem root_dependsOn (h : Unfolds needs [] root) (hn : (ofConfiguration root).contains n)
    (hne : n ≠ root.name) : TransGen (ofConfiguration root).DependsOn root.name n := by
  obtain ⟨c, hc, rfl⟩ := List.mem_map.1 (h.contains_iff_walked.1 hn)
  have hreach : ReflTransGen (ofConfiguration root).DependsOn root.name c.name := by
    refine walked_subset (S := fun n => ReflTransGen (ofConfiguration root).DependsOn root.name n)
      [] [root] ?_ ?_ c hc
    · intro d hd
      rw [List.mem_singleton.1 hd]
    · intro d hd hreach e he
      obtain ⟨path, hu, _⟩ := h.walked hd
      exact hreach.tail (ofConfiguration_dependsOn.2 ⟨d, hd, rfl, hu.child_key he⟩)
  exact (reflTransGen_iff_eq_or_transGen.1 hreach).resolve_left hne

/-- The order in which a walk finishes is an install order. -/
theorem exists_installOrder (h : Unfolds needs [] root) :
    ∃ order, (ofConfiguration root).IsInstallOrder order := by
  have hrow : ∀ c ∈ [root], Unfolds needs [] c := by
    intro c hc
    rw [List.mem_singleton.1 hc]
    exact h
  obtain ⟨finish, hperm, hlast⟩ := exists_finish [] [] [] [root] (by simp) hrow
  refine ⟨finish, hperm.nodup_iff.2 (walkFrom_nodup [] [root]).1, fun n => ?_, fun n d hdep => ?_⟩
  · rw [h.contains_iff_walked, hperm.mem_iff, walk]
  · obtain ⟨c, hc, rfl, hkey⟩ := ofConfiguration_dependsOn.1 hdep
    obtain ⟨earlier, later, heq, hearlier⟩ := hlast c hc
    exact ⟨earlier, later, heq, (hearlier d hkey).resolve_left List.not_mem_nil⟩

end Unfolds

end PackageRecipes.Configuration
