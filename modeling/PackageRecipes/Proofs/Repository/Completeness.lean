import PackageRecipes.Proofs.Condition.Attached
import PackageRecipes.Proofs.Repository.Expansion

/-!
# What a default tree leaves out

Which dependencies a package of a default tree has attached is settled while nothing is attached to it yet.
So the tree has each dependency whose condition asks nothing of other dependencies, and misses one that
becomes active only through what is attached.
-/

namespace PackageRecipes.Repository

open PackageRecipes.Configuration

variable {r : Repository} {root node : Configuration} {path : List String} {t : String}

/-- Each configuration of a default tree is expanded from the one that its package is read at. -/
theorem Occurs.expanded (h : r.Keyed) (hroot : root.dependencies = .empty)
    (hnode : (r.defaultTree root).Occurs path node) :
    ∃ available c, node = r.expand available c ∧ c.dependencies = .empty ∧
      c.compiler = root.compiler ∧ root.name ∉ available ∧
      chosen root (r.defaultWith root.compiler) c.name = some c := by
  induction hnode with
  | root =>
      have hnd : r.names.Nodup := h.ascending.nodup
      exact ⟨r.names.erase root.name, root, rfl, hroot, rfl, by simp [hnd.mem_erase_iff], by simp [chosen]⟩
  | @attached path node d _ hd ih =>
      obtain ⟨available, c, rfl, hc, hcompiler, hout, _⟩ := ih
      obtain ⟨k, he⟩ := exists_entry hd
      obtain ⟨hin, e, hdefault, rfl⟩ := expand_child hc he
      obtain ⟨hname, hcompiler', hempty⟩ := h.defaultWith_eq hdefault
      have hother : e.name ≠ root.name := by
        rw [hname]
        exact fun heq => hout (heq ▸ hin)
      refine ⟨available.erase k, e, rfl, hempty, hcompiler'.trans hcompiler,
        fun hm => hout (List.mem_of_mem_erase hm), ?_⟩
      rw [chosen, if_neg hother, hname, ← hcompiler, hdefault]

theorem chosen_of_occurs (h : r.Keyed) (hroot : root.dependencies = .empty)
    (hnode : (r.defaultTree root).Occurs path node) :
    chosen root (r.defaultWith root.compiler) node.name = some node.alone := by
  obtain ⟨available, c, rfl, hc, _, _, hchosen⟩ := Occurs.expanded h hroot hnode
  obtain ⟨m, hm⟩ := expand_eq r available c
  cases c
  simp only at hc
  rw [hm, alone, ← hc]
  exact hchosen

theorem mem_keys_of_occurs (h : r.Keyed) (hroot : root.dependencies = .empty)
    (hnode : (r.defaultTree root).Occurs path node) :
    t ∈ node.dependencies.keys ↔
      (t ∈ r.activeTargets node.alone ∧ r.Installable t) ∧ t ∉ node.name :: path := by
  have hunfolds := (defaultTree_unfolds h hroot).occurs hnode
  rw [List.append_nil] at hunfolds
  rw [hunfolds.mem_keys_iff, needs_iff (chosen_of_occurs h hroot hnode)]

/-- A dependency that asks nothing of others is active on a package with nothing attached, too. -/
theorem mem_activeTargets_alone {s : PackageSpec} (hs : r.spec? node.name = some s) {d : Dependency}
    (hd : d ∈ s.activeDependencies node) (hown : d.condition.isOwn) :
    d.target ∈ r.activeTargets node.alone := by
  obtain ⟨hmem, hactive⟩ := List.mem_filter.1 hd
  rw [activeTargets, show r.spec? node.alone.name = some s from hs]
  refine List.mem_map.2 ⟨d, List.mem_filter.2 ⟨hmem, ?_⟩, rfl⟩
  rwa [Dependency.isActive, Condition.holds_alone d.condition hown]

/-- A package of a default tree has attached to it what it needs while nothing is attached, apart from what
lies on the path to it. In particular it has every dependency that is active on it as it stands in the tree,
that asks nothing of others and that can be installed, unless that is itself or an ancestor. -/
theorem defaultTree_attached (hr : r.Reachable) (hroot : root.dependencies = .empty)
    (hnode : (r.defaultTree root).Occurs path node) :
    (∀ t, t ∈ node.dependencies.keys ↔
        (t ∈ r.activeTargets node.alone ∧ r.Installable t) ∧ t ∉ node.name :: path) ∧
      ∀ s, r.spec? node.name = some s → ∀ d ∈ s.activeDependencies node, d.condition.isOwn →
        r.Installable d.target →
          d.target ∈ node.dependencies.keys ∨ d.target = node.name ∨ d.target ∈ path := by
  refine ⟨fun t => mem_keys_of_occurs hr.keyed hroot hnode, fun s hs d hd hown hinstallable => ?_⟩
  by_cases hpath : d.target ∈ node.name :: path
  · exact Or.inr (List.mem_cons.1 hpath)
  · exact Or.inl ((mem_keys_of_occurs hr.keyed hroot hnode).2
      ⟨⟨mem_activeTargets_alone hs hd hown, hinstallable⟩, hpath⟩)

/-- A package that needs a second one only beside the first. -/
def besides : Repository :=
  ofRecipes [plainRecipe "app" [("mesh", none), ("blas", some (.one "mesh"))], plainRecipe "mesh" [],
    plainRecipe "blas" []]

theorem besides_reachable : Reachable besides := ofRecipes_reachable _

theorem besides_tree : besides.defaultTree (bare "app" ⟨"1", [.number 1]⟩) =
    { bare "app" ⟨"1", [.number 1]⟩ with dependencies := .ofList [("mesh", bare "mesh" ⟨"1", [.number 1]⟩)] } := by
  have hmesh : besides.default? "mesh" = some (bare "mesh" ⟨"1", [.number 1]⟩) :=
    besides_reachable.keyed.default?_bare (by decide +kernel)
  have htargets : besides.activeTargets (bare "app" ⟨"1", [.number 1]⟩) = ["mesh"] := by decide +kernel
  rw [defaultTree, expand, htargets, attach_cons_new [] (by decide +kernel) List.not_mem_nil hmesh, attach_nil,
    expand_of_targets_nil (by decide +kernel)]
  rfl

theorem besides_keys : (besides.defaultTree (bare "app" ⟨"1", [.number 1]⟩)).dependencies.keys = ["mesh"] := by
  rw [besides_tree]
  rfl

theorem attached_besides :
    besides.Reachable ∧ (bare "app" ⟨"1", [.number 1]⟩).dependencies = .empty ∧
      (besides.defaultTree (bare "app" ⟨"1", [.number 1]⟩)).Occurs []
        (besides.defaultTree (bare "app" ⟨"1", [.number 1]⟩)) ∧
      ∀ t, t = "mesh" ↔
        (t ∈ besides.activeTargets (besides.defaultTree (bare "app" ⟨"1", [.number 1]⟩)).alone ∧
          besides.Installable t) ∧ t ≠ "app" := by
  have hroot : (bare "app" ⟨"1", [.number 1]⟩).dependencies = .empty := rfl
  refine ⟨besides_reachable, hroot, .root, fun t => ?_⟩
  have hattached := (defaultTree_attached besides_reachable hroot .root).1 t
  rw [besides_keys, defaultTree_name, List.mem_singleton, List.mem_singleton] at hattached
  exact hattached

/-- A dependency that becomes active through what is attached is not attached itself. -/
theorem not_defaultTree_complete :
    ¬ ∀ (r : Repository) (root : Configuration), r.Reachable → root.dependencies = .empty →
      ∀ path node, (r.defaultTree root).Occurs path node → ∀ t ∈ r.activeTargets node, r.Installable t →
        t ∈ node.dependencies.keys ∨ t = node.name ∨ t ∈ path := by
  intro hall
  have hblas : besides.Installable "blas" := default?_isSome.1 (by decide +kernel)
  have hactive : "blas" ∈ besides.activeTargets (besides.defaultTree (bare "app" ⟨"1", [.number 1]⟩)) := by
    rw [besides_tree]
    decide +kernel
  have hplace := hall besides (bare "app" ⟨"1", [.number 1]⟩) besides_reachable rfl [] _ .root "blas" hactive hblas
  rw [besides_keys, defaultTree_name] at hplace
  simp [bare] at hplace

end PackageRecipes.Repository
