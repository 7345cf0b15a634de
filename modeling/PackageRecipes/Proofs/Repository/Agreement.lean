import PackageRecipes.Proofs.Repository.Expansion
import PackageRecipes.Proofs.Repository.Exploration

/-!
# Two orders for one root

What a root needs is listed in two ways: in the order of its default tree, whose packages have the root's
compiler, and in the order of its dependency graph, whose packages below the root have no compiler. Both list
the same packages for a root without a compiler. For any other root they need not.
-/

namespace PackageRecipes.Repository

open PackageRecipes.Configuration Relation

variable {r : Repository} {root : Configuration} {n : String}

/-- The listed packages are those of an order that are the root or can be installed. -/
def Agree (r : Repository) (root : Configuration) (order listed : List String) : Prop :=
  ∀ n, n ∈ listed ↔ n ∈ order ∧ (n = root.name ∨ r.Installable n)

theorem defaultWith_none (hr : r.Keyed) : r.defaultWith none = r.default? := by
  funext n
  cases hc : r.default? n with
  | none => simp [defaultWith, hc]
  | some c =>
      have hcompiler := (hr.default?_eq hc).2.1
      cases c
      simp only at hcompiler
      simp [defaultWith, hc, hcompiler]

/-- Only the root and packages that can be installed lead on to others. -/
theorem reached_installable :
    ReflTransGen (r.ActiveEdge root r.default?) root.name n ∧ (n = root.name ∨ r.Installable n) ↔
      ReflTransGen (r.Needs root r.default?) root.name n := by
  constructor
  · rintro ⟨hreach, hn⟩
    induction hreach with
    | refl => exact .refl
    | tail _ hedge ih =>
        rcases hn with rfl | hn
        · exact .refl
        · exact (ih hedge.root_or_installable).tail ⟨hedge, hn⟩
  · intro hreach
    refine ⟨ReflTransGen.mono (fun _ _ h => h.1) _ _ hreach, ?_⟩
    cases hreach with
    | refl => exact Or.inl rfl
    | tail _ h => exact Or.inr h.2

/-- The packages of the order that count are those that the root needs when no other package has a
compiler. -/
theorem mem_order_iff (hr : r.Keyed) {order : List String}
    (hsort : (r.dependencyGraph root).topologicalSort = .ok order) :
    n ∈ order ∧ (n = root.name ∨ r.Installable n) ↔
      ReflTransGen (r.Needs root r.default?) root.name n := by
  have horder := (dependencyGraph_consistent hr root).isInstallOrder hsort
  rw [horder.complete, contains_dependencyGraph hr, reached_installable]

/-- The lists agree exactly when what a package of both needs, at either of its configurations, is in the
other list, too. -/
theorem agree_iff (hr : r.Keyed) {order listed : List String}
    (hsort : (r.dependencyGraph root).topologicalSort = .ok order)
    (hmem : ∀ n, n ∈ listed ↔ ReflTransGen (r.Needs root (r.defaultWith root.compiler)) root.name n) :
    Agree r root order listed ↔
      ∀ n ∈ listed, n ∈ order → ∀ d, r.Installable d →
        (r.ActiveEdge root (r.defaultWith root.compiler) n d → d ∈ order) ∧
          (r.ActiveEdge root r.default? n d → d ∈ listed) := by
  have hcounts := fun n => mem_order_iff (n := n) hr hsort
  constructor
  · intro hagree n hn hin d hd
    have hn' := (hcounts n).1 ((hagree n).1 hn)
    constructor
    · intro hedge
      exact ((hagree d).1 ((hmem d).2 (((hmem n).1 hn).tail ⟨hedge, hd⟩))).1
    · intro hedge
      exact (hagree d).2 ((hcounts d).2 (hn'.tail ⟨hedge, hd⟩))
  · -- Both lists start from the root, so each way is an induction on how the package is reached.
    intro hlocal n
    rw [hmem, hcounts]
    constructor
    · intro hreach
      induction hreach with
      | refl => exact .refl
      | @tail m d hm hneeds ih =>
          have hedge := (hlocal m ((hmem m).2 hm) ((hcounts m).2 ih).1 d hneeds.2).1 hneeds.1
          exact (hcounts d).1 ⟨hedge, Or.inr hneeds.2⟩
    · intro hreach
      induction hreach with
      | refl => exact .refl
      | @tail m d hm hneeds ih =>
          have hedge := (hlocal m ((hmem m).2 ih) ((hcounts m).2 hm).1 d hneeds.2).2 hneeds.1
          exact (hmem d).1 hedge

/-- The lists agree if no dependency is active at only one of the two configurations of a package. -/
theorem agree_of_edges (hr : r.Keyed) {order listed : List String}
    (hsort : (r.dependencyGraph root).topologicalSort = .ok order)
    (hmem : ∀ n, n ∈ listed ↔ ReflTransGen (r.Needs root (r.defaultWith root.compiler)) root.name n)
    (hedges : ∀ n d, r.Installable d →
      (r.ActiveEdge root (r.defaultWith root.compiler) n d ↔ r.ActiveEdge root r.default? n d)) :
    Agree r root order listed := by
  have hneeds : r.Needs root (r.defaultWith root.compiler) = r.Needs root r.default? := by
    funext n d
    exact propext (and_congr_left (hedges n d))
  intro n
  rw [hmem, mem_order_iff hr hsort, hneeds]

/-- The two orders list the same packages exactly when no package of both has a dependency that can be
installed, that is active with the root's compiler or without one, and that the other order misses. So they
do for a root without a compiler, and where compilers make no dependency active or inactive. -/
theorem orders_agree_iff (hr : r.Reachable) (hroot : root.dependencies = .empty) {order : List String}
    (hsort : (r.dependencyGraph root).topologicalSort = .ok order) :
    ∃ listed, r.installOrder (r.defaultTree root) = .ok listed ∧
      (Agree r root order listed ↔
        ∀ n ∈ listed, n ∈ order → ∀ d, r.Installable d →
          (r.ActiveEdge root (r.defaultWith root.compiler) n d → d ∈ order) ∧
            (r.ActiveEdge root r.default? n d → d ∈ listed)) ∧
      (root.compiler = none → Agree r root order listed) ∧
      ((∀ n d, r.Installable d →
        (r.ActiveEdge root (r.defaultWith root.compiler) n d ↔ r.ActiveEdge root r.default? n d)) →
          Agree r root order listed) := by
  obtain ⟨listed, hlisted, _, hmem⟩ := exists_defaultTree_order hr.keyed hroot
  refine ⟨listed, hlisted, agree_iff hr.keyed hsort hmem, ?_, agree_of_edges hr.keyed hsort hmem⟩
  intro hnone
  refine agree_of_edges hr.keyed hsort hmem fun n d _ => ?_
  rw [hnone, defaultWith_none hr.keyed]

/-- A chain of three packages whose last link is active for one compiler only. -/
def compilerChain : Repository :=
  ofRecipes [plainRecipe "app" [("mesh", none)], plainRecipe "mesh" [("blas", some (.one "%gcc"))],
    plainRecipe "blas" []]

theorem compilerChain_reachable : Reachable compilerChain := ofRecipes_reachable _

theorem compilerChain_order (hname : root.name = "app") (htargets : compilerChain.activeTargets root = ["mesh"]) :
    (compilerChain.dependencyGraph root).topologicalSort = .ok ["mesh", "app"] := by
  have hmesh : compilerChain.default? "mesh" = some (bare "mesh" ⟨"1", [.number 1]⟩) :=
    compilerChain_reachable.keyed.default?_bare (by decide +kernel)
  have hleaf : compilerChain.activeTargets (bare "mesh" ⟨"1", [.number 1]⟩) = [] := by decide +kernel
  have hnames : compilerChain.names.erase "app" = ["blas", "mesh"] := by decide +kernel
  have hfound : compilerChain.discover ["blas", "mesh"] ["mesh"] =
      (["blas", "mesh"], [bare "mesh" ⟨"1", [.number 1]⟩]) := by
    simp [discover, hmesh]
  have hgraph : compilerChain.dependencyGraph root =
      (Graph.empty.addPackage "app" ["mesh"]).addPackage "mesh" [] := by
    rw [dependencyGraph, hname, hnames, explore, if_pos (hname ▸ List.mem_cons_self), htargets, hname,
      List.erase_cons_head]
    dsimp only
    rw [hfound, List.nil_append, explore, if_pos (by decide), hleaf]
    exact explore.eq_1 ..
  rw [hgraph]
  rfl

/-- A default tree with the right compiler lists the last link, too. -/
theorem compilerChain_listed {listed : List String}
    (h : compilerChain.installOrder (compilerChain.defaultTree
      ((bare "app" ⟨"1", [.number 1]⟩).withCompiler ⟨"gcc", none⟩)) = .ok listed) : "blas" ∈ listed := by
  have hmesh : compilerChain.Needs ((bare "app" ⟨"1", [.number 1]⟩).withCompiler ⟨"gcc", none⟩)
      (compilerChain.defaultWith (some ⟨"gcc", none⟩)) "app" "mesh" :=
    ⟨.of_any (by decide +kernel), default?_isSome.1 (by decide +kernel)⟩
  have hblas : compilerChain.Needs ((bare "app" ⟨"1", [.number 1]⟩).withCompiler ⟨"gcc", none⟩)
      (compilerChain.defaultWith (some ⟨"gcc", none⟩)) "mesh" "blas" :=
    ⟨.of_any (by decide +kernel), default?_isSome.1 (by decide +kernel)⟩
  have hroot : ((bare "app" ⟨"1", [.number 1]⟩).withCompiler ⟨"gcc", none⟩).dependencies = .empty := rfl
  obtain ⟨listed', hlisted, -, hmem⟩ := exists_defaultTree_order compilerChain_reachable.keyed hroot
  obtain rfl : listed' = listed := Except.ok.inj (hlisted.symm.trans h)
  exact (hmem "blas").2 ((ReflTransGen.single hmesh).tail hblas)

theorem orders_agree_compilerChain :
    compilerChain.Reachable ∧ (bare "app" ⟨"1", [.number 1]⟩).dependencies = .empty ∧
      (compilerChain.dependencyGraph (bare "app" ⟨"1", [.number 1]⟩)).topologicalSort =
        .ok ["mesh", "app"] ∧
      ∃ listed, compilerChain.installOrder (compilerChain.defaultTree (bare "app" ⟨"1", [.number 1]⟩)) =
          .ok listed ∧
        Agree compilerChain (bare "app" ⟨"1", [.number 1]⟩) ["mesh", "app"] listed := by
  have hsort : (compilerChain.dependencyGraph (bare "app" ⟨"1", [.number 1]⟩)).topologicalSort =
      .ok ["mesh", "app"] := compilerChain_order rfl (by decide +kernel)
  obtain ⟨listed, hlisted, _, hagree, _⟩ := orders_agree_iff compilerChain_reachable rfl hsort
  exact ⟨compilerChain_reachable, rfl, hsort, listed, hlisted, hagree rfl⟩

/-- With a compiler, a default tree can list packages that the order of the dependency graph misses. -/
theorem not_orders_agree :
    ¬ ∀ (r : Repository) (root : Configuration), r.Reachable → root.dependencies = .empty →
      ∀ order, (r.dependencyGraph root).topologicalSort = .ok order →
        ∃ listed, r.installOrder (r.defaultTree root) = .ok listed ∧ Agree r root order listed := by
  intro hall
  have hsort := compilerChain_order rfl
    (show compilerChain.activeTargets ((bare "app" ⟨"1", [.number 1]⟩).withCompiler ⟨"gcc", none⟩) = ["mesh"] by
      decide +kernel)
  obtain ⟨listed, hlisted, hagree⟩ := hall compilerChain _ compilerChain_reachable rfl _ hsort
  simpa using ((hagree "blas").1 (compilerChain_listed hlisted)).1

end PackageRecipes.Repository
