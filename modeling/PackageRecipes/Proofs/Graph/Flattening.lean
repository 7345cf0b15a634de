import PackageRecipes.Proofs.Graph.Sorting
import PackageRecipes.Proofs.Graph.Tree
import PackageRecipes.Repository

/-!
# What the graph of a tree keeps

The graph of a tree has what is attached to the first occurrence of each package. Another occurrence of the
package can have more attached to it, and that is lost. A tree whose packages have the same names attached
wherever they occur loses nothing.
-/

namespace PackageRecipes.Configuration

open PackageRecipes.Graph

variable {root c : Configuration} {path : List String} {t : String}

/-- A graph has every package of a tree, and an edge for whatever is attached to an occurrence of it. -/
structure Flattens (root : Configuration) (g : Graph) : Prop where
  contains : ∀ path c, root.Occurs path c → g.contains c.name
  dependsOn : ∀ path c, root.Occurs path c → ∀ t ∈ c.dependencies.keys, g.DependsOn c.name t

/-- Whatever is attached to an occurrence of a package is attached to the one that a walk meets. -/
def Covered (root : Configuration) : Prop :=
  ∀ path c, root.Occurs path c →
    ∃ d ∈ root.walk, d.name = c.name ∧ ∀ t ∈ c.dependencies.keys, t ∈ d.dependencies.keys

theorem Covered.flattens (h : root.Covered) : root.Flattens (ofConfiguration root) where
  contains := by
    intro path c hc
    obtain ⟨d, hd, hname, _⟩ := h path c hc
    exact contains_addConfiguration.2 (Or.inl ⟨d, hd, Or.inl hname.symm⟩)
  dependsOn := by
    intro path c hc t ht
    obtain ⟨d, hd, hname, hkeys⟩ := h path c hc
    exact ofConfiguration_dependsOn.2 ⟨d, hd, hname, hkeys t ht⟩

theorem Labelled.covered (h : root.Labelled) (hg : root.Flattens (ofConfiguration root)) :
    root.Covered := by
  intro path c hc
  obtain ⟨d, hd, hname⟩ := List.mem_map.1 (h.contains_iff_walked.1 (hg.contains path c hc))
  refine ⟨d, hd, hname, fun t ht => ?_⟩
  obtain ⟨d', hd', hname', ht'⟩ := ofConfiguration_dependsOn.1 (hg.dependsOn path c hc t ht)
  rwa [eq_of_walked hd hd' (hname.trans hname'.symm)]

/-- A uniform tree has each of its packages met by a walk, as what is attached to any occurrence is attached
to the one that is met. -/
theorem Labelled.covered_of_uniform (h : root.Labelled) (hu : root.Uniform) : root.Covered := by
  have hwalked : ∀ path c, root.Occurs path c → c.name ∈ root.walk.map name := by
    intro path c hc
    induction hc with
    | root => exact root_walked root
    | @attached path c d hc hd ih =>
        obtain ⟨c', hc', hname⟩ := List.mem_map.1 ih
        obtain ⟨path', hoccurs⟩ := occurs_of_walked hc'
        have hkey := hu path c path' c' hc hoccurs hname.symm d.name (h.child_key hc hd)
        obtain ⟨d', hd', heq⟩ := h.exists_child hoccurs hkey
        rw [← heq]
        exact walked_child hc' hd'
  intro path c hc
  obtain ⟨d, hd, hname⟩ := List.mem_map.1 (hwalked path c hc)
  obtain ⟨path', hoccurs⟩ := occurs_of_walked hd
  exact ⟨d, hd, hname, hu path c path' d hc hoccurs hname.symm⟩

/-- An install order of a graph that has the whole tree lists each package after whatever is attached to any
of its occurrences. -/
theorem Flattens.ordered (h : root.Flattens (ofConfiguration root)) {r : Repository} {order : List String}
    (hsort : r.installOrder root = .ok order) (hc : root.Occurs path c) :
    c.name ∈ order ∧ ∀ t ∈ c.dependencies.keys, Before order t c.name := by
  have horder := (ofConfiguration_consistent root).isInstallOrder hsort
  exact ⟨(horder.complete _).2 (h.contains path c hc), fun t ht =>
    horder.ordered _ _ (h.dependsOn path c hc t ht)⟩

/-- The graph of a tree keeps the edges of the occurrences that a walk meets, and no others. So it has the
whole tree exactly when these occurrences cover all others, as they do in a uniform tree; and then an install
order lists each package after whatever is attached to any of its occurrences. -/
theorem flattens_ofConfiguration_iff (h : root.Labelled) :
    (∀ n t, (ofConfiguration root).DependsOn n t ↔
        ∃ c ∈ root.walk, c.name = n ∧ t ∈ c.dependencies.keys) ∧
      (root.Flattens (ofConfiguration root) ↔ root.Covered) ∧
      (root.Uniform → root.Flattens (ofConfiguration root)) ∧
      (root.Flattens (ofConfiguration root) → ∀ (r : Repository) (order : List String),
        r.installOrder root = .ok order → ∀ path c, root.Occurs path c →
          c.name ∈ order ∧ ∀ t ∈ c.dependencies.keys, Before order t c.name) := by
  refine ⟨fun _ _ => ofConfiguration_dependsOn, ⟨h.covered, Covered.flattens⟩, ?_, ?_⟩
  · intro hu
    exact (h.covered_of_uniform hu).flattens
  · intro hg r order hsort path c hc
    exact hg.ordered hsort hc

def leaf (name : String) : Configuration := bare name ⟨"1", [.number 1]⟩

/-- A package with another one attached to it. -/
def shared : Configuration := (leaf "shared").withDependency (leaf "zlib")

/-- A tree with that package attached to its root, next to another package that has `first` attached. -/
def sharing (first : Configuration) : Configuration :=
  ((leaf "app").withDependency ((leaf "left").withDependency first)).withDependency shared

theorem labelled_shared : shared.Labelled := (labelled_bare _ _).withDependency (labelled_bare _ _)

theorem labelled_sharing {first : Configuration} (h : first.Labelled) : (sharing first).Labelled :=
  ((labelled_bare _ _).withDependency ((labelled_bare _ _).withDependency h)).withDependency
    labelled_shared

theorem values_sharing (first : Configuration) :
    (sharing first).dependencies.values = [(leaf "left").withDependency first, shared] := by
  have after : ¬ "shared" < "left" := by decide
  have other : "shared" ≠ "left" := by decide
  simp only [sharing, shared, withDependency, leaf, bare, NameMap.values, NameMap.insert, NameMap.place,
    NameMap.empty, after, other, ↓reduceIte, List.map_cons, List.map_nil]

theorem uniform_sharing : (sharing shared).Uniform := by
  have hmem : ∀ path c, (sharing shared).Occurs path c →
      c ∈ [sharing shared, (leaf "left").withDependency shared, shared, leaf "zlib"] := by
    intro path c hc
    induction hc with
    | root => simp
    | @attached path c d _ hd ih =>
        simp only [List.mem_cons, List.not_mem_nil, or_false] at ih ⊢
        rcases ih with rfl | rfl | rfl | rfl
        · rw [values_sharing] at hd
          rcases List.mem_pair.1 hd with rfl | rfl <;> simp
        · exact Or.inr (Or.inr (Or.inl (List.mem_singleton.1 hd)))
        · exact Or.inr (Or.inr (Or.inr (List.mem_singleton.1 hd)))
        · cases hd
  intro path c path' d hc hd hname t ht
  have hnames : ([sharing shared, (leaf "left").withDependency shared, shared,
      leaf "zlib"].map name).Nodup := by decide
  rwa [← List.inj_on_of_nodup_map hnames (hmem path c hc) (hmem path' d hd) hname]

theorem flattens_sharing :
    (sharing shared).Labelled ∧ (sharing shared).Flattens (ofConfiguration (sharing shared)) := by
  have hlabelled := labelled_sharing labelled_shared
  exact ⟨hlabelled, (flattens_ofConfiguration_iff hlabelled).2.2.1 uniform_sharing⟩

/-- What is attached to a package at its second place only is not in the graph. -/
theorem not_flattens_ofConfiguration :
    ¬ ∀ root : Configuration, root.Labelled → root.Flattens (ofConfiguration root) := by
  intro hall
  have hlabelled : (sharing (leaf "shared")).Labelled := labelled_sharing (labelled_bare _ _)
  have hshared : (sharing (leaf "shared")).Occurs ["app"] shared :=
    .attached .root (by simp [values_sharing])
  have hzlib : (sharing (leaf "shared")).Occurs ["shared", "app"] (leaf "zlib") :=
    hshared.attached (List.mem_singleton.2 rfl)
  have hmet := hlabelled.contains_iff_walked.1 ((hall _ hlabelled).contains _ _ hzlib)
  have hwalk : (sharing (leaf "shared")).walk.map name = ["app", "left", "shared"] := by decide +kernel
  rw [hwalk] at hmet
  simp [leaf, bare] at hmet

end PackageRecipes.Configuration
