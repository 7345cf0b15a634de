import PackageRecipes.Proofs.Repository.Completeness

/-!
# The shape of a default tree

A default tree is its root, as it was given, over default configurations with the root's compiler. Packages are
attached under their own names and because they are needed, also with all that the tree attaches; and none of them
stands below itself, so the packages of the repository bound how deep the tree gets.
-/

namespace PackageRecipes

namespace Configuration

variable {needs : String → String → Prop} {root c : Configuration} {path : List String}

theorem Unfolds.path_nodup (h : Unfolds needs [] root) (hc : root.Occurs path c) : (c.name :: path).Nodup := by
  have hfresh : ∀ {path c}, root.Occurs path c → c.name ∉ path := by
    intro path c hc
    have hunfolds := h.occurs hc
    rw [List.append_nil] at hunfolds
    cases hunfolds with
    | node fresh _ _ _ => exact fresh
  induction hc with
  | root => exact List.nodup_singleton _
  | attached hparent hd ih => exact List.nodup_cons.2 ⟨hfresh (hparent.attached hd), ih⟩

/-- All that stands on a path, apart from the root, is attached there. -/
theorem Occurs.path_subset {S : String → Prop} (hc : root.Occurs path c)
    (hS : ∀ path c, root.Occurs path c → ∀ d ∈ c.dependencies.values, S d.name) :
    ∀ n ∈ (c.name :: path).dropLast, S n := by
  induction hc with
  | root => exact List.forall_mem_nil _
  | @attached path c d hparent hd ih =>
      rw [List.dropLast_cons_of_ne_nil (List.cons_ne_nil c.name path)]
      exact List.forall_mem_cons.2 ⟨hS path c hparent d hd, ih⟩

theorem Occurs.root_or_below (hc : root.Occurs path c) : path = [] ∨ root.name ∈ path := by
  induction hc with
  | root => exact Or.inl rfl
  | @attached path c d hparent _ ih =>
      rcases ih with rfl | hroot
      · cases hparent
        exact Or.inr List.mem_cons_self
      · exact Or.inr (List.mem_cons_of_mem _ hroot)

end Configuration

namespace Repository

open PackageRecipes.Configuration

variable {r : Repository} {root node : Configuration} {path : List String} {t : String}

theorem defaultTree_alone (hroot : root.dependencies = .empty) : (r.defaultTree root).alone = root := by
  obtain ⟨m, hm⟩ := expand_eq r (r.names.erase root.name) root
  cases root
  simp only at hroot
  rw [defaultTree, hm, alone, hroot]

/-- What is active while nothing is attached stays so with whatever is attached. -/
theorem activeTargets_of_alone (h : t ∈ r.activeTargets node.alone) : t ∈ r.activeTargets node := by
  unfold activeTargets at h ⊢
  cases hs : r.spec? node.name with
  | none => simp [alone, hs] at h
  | some s =>
      rw [show r.spec? node.alone.name = some s from hs] at h
      obtain ⟨d, hd, rfl⟩ := List.mem_map.1 h
      obtain ⟨hmem, hactive⟩ := List.mem_filter.1 hd
      have hstill := Condition.holds_of_extends (extends_alone node) d.condition hactive
      exact List.mem_map.2 ⟨d, List.mem_filter.2 ⟨hmem, hstill⟩, rfl⟩

/-- Below the root stand default configurations with the root's compiler. -/
theorem default_of_occurs (h : r.Keyed) (hroot : root.dependencies = .empty)
    (hnode : (r.defaultTree root).Occurs path node) (hpath : path ≠ []) :
    r.defaultWith root.compiler node.name = some node.alone := by
  have hbelow := hnode.root_or_below.resolve_left hpath
  have hnodup := (defaultTree_unfolds h hroot).path_nodup hnode
  have hother : node.name ≠ root.name := by
    intro heq
    rw [defaultTree_name, ← heq] at hbelow
    exact (List.nodup_cons.1 hnodup).1 hbelow
  have hchosen := chosen_of_occurs h hroot hnode
  rwa [chosen, if_neg hother] at hchosen

/-- All that is attached is installable and stands on its path once, so there are no more packages on the path than
in the repository. -/
theorem path_length_le (h : r.Keyed) (hroot : root.dependencies = .empty)
    (hnode : (r.defaultTree root).Occurs path node) : path.length ≤ r.size := by
  have hunfolds := defaultTree_unfolds h hroot
  have hnames : ∀ n ∈ (node.name :: path).dropLast, n ∈ r.names := by
    refine hnode.path_subset fun path c hc d hd => ?_
    have hkey := hunfolds.labelled.child_key hc hd
    exact ((mem_keys_of_occurs h hroot hc).1 hkey).1.2.mem_names
  have hnodup := (hunfolds.path_nodup hnode).sublist (List.dropLast_sublist _)
  have hle := (List.subperm_of_subset hnodup hnames).length_le
  rw [List.length_dropLast, List.length_cons, Nat.add_sub_cancel, names, NameMap.length_keys] at hle
  exact hle

/-- A default tree is its root over default configurations with the root's compiler. No package stands twice on a
path, which has no more packages than the repository; and whatever is attached stands under its own name, for a
dependency that is active on the package as it stands in the tree. -/
theorem defaultTree_shape (hr : r.Reachable) (hroot : root.dependencies = .empty) :
    (r.defaultTree root).alone = root ∧
      ∀ path node, (r.defaultTree root).Occurs path node →
        (path ≠ [] → r.defaultWith root.compiler node.name = some node.alone) ∧
        (node.name :: path).Nodup ∧ path.length ≤ r.size ∧
        ∀ e ∈ node.dependencies.entries, e.2.name = e.1 ∧ e.1 ∈ r.activeTargets node := by
  have h := hr.keyed
  have hunfolds := defaultTree_unfolds h hroot
  refine ⟨defaultTree_alone hroot, fun path node hnode => ?_⟩
  refine ⟨default_of_occurs h hroot hnode, hunfolds.path_nodup hnode, path_length_le h hroot hnode, fun e he => ?_⟩
  have hkey : e.1 ∈ node.dependencies.keys := List.mem_map.2 ⟨e, he, rfl⟩
  have hactive := ((mem_keys_of_occurs h hroot hnode).1 hkey).1.1
  exact ⟨hunfolds.labelled path node hnode e he, activeTargets_of_alone hactive⟩

/-- A root with a compiler, in a circle. -/
def compiledLeft : Configuration := (bare "left" ⟨"1", [.number 1]⟩).withCompiler ⟨"gcc", none⟩

theorem defaultTree_compiledLeft :
    circle.Reachable ∧ compiledLeft.dependencies = .empty ∧
      ∃ right, ("right", right) ∈ (circle.defaultTree compiledLeft).dependencies.entries ∧
        right.name = "right" ∧ "right" ∈ circle.activeTargets (circle.defaultTree compiledLeft) ∧
        circle.defaultWith (some ⟨"gcc", none⟩) "right" = some right.alone ∧ ["right", "left"].Nodup := by
  have hroot : compiledLeft.dependencies = .empty := rfl
  have hkey : "right" ∈ (circle.defaultTree compiledLeft).dependencies.keys := by
    rw [mem_keys_of_occurs circle_reachable.keyed hroot .root, defaultTree_alone hroot, defaultTree_name]
    exact ⟨⟨by decide +kernel, default?_isSome.1 (by decide +kernel)⟩, by decide +kernel⟩
  obtain ⟨⟨key, right⟩, hentry, rfl⟩ := List.mem_map.1 hkey
  have hright : (circle.defaultTree compiledLeft).Occurs ["left"] right := by
    have hoccurs := Occurs.attached .root (List.mem_map.2 ⟨_, hentry, rfl⟩)
    rwa [defaultTree_name] at hoccurs
  obtain ⟨-, hnodes⟩ := defaultTree_shape circle_reachable hroot
  obtain ⟨-, -, -, hchildren⟩ := hnodes [] _ .root
  obtain ⟨hname, hactive⟩ := hchildren _ hentry
  obtain ⟨hdefault, hnodup, -, -⟩ := hnodes ["left"] right hright
  simp only at hname
  rw [hname] at hdefault hnodup
  exact ⟨circle_reachable, hroot, right, hentry, hname, hactive, hdefault (List.cons_ne_nil _ _), hnodup⟩

end Repository

end PackageRecipes
